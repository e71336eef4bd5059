import Shinigami.Monitoring.Metrics.ExportLines
import Shinigami.ServiceManager.Lifecycle.ManagementServices

/-!
# The length of an export

`prometheus_render` gives the length of its text, and the handler of `/metrics` announces
that length in front of it. A text that does not fit is answered with -1, which is a large
number in the unsigned type of the return value: `exportLength_iff` says that the lengths are
right exactly when the whole text fits.
-/

namespace Shinigami

namespace Monitoring

open CString TextLines
open ServiceManager.Management (carriageReturn ContentLengthMatches contentLengthMatches_message_iff
  newline_notMem_contentLength not_blank_contentLength)

/-- What the response to `/metrics` starts with. -/
def metricsHead (promLen : UInt32) : List UInt8 :=
  literal "HTTP/1.1 200 OK\r\n" ++ literal "Content-Type: text/plain; version=0.0.4\r\n" ++
    literal "Content-Length: " ++ decimal promLen.toNat ++ literal "\r\n" ++
    literal "Connection: close\r\n" ++ literal "\r\n"

/-- The branch of `handle_request` for `/metrics`: what is handed to `send`. -/
def handleMetrics (fixed : FixedFormat) (snapshot : MonSnapshot) : List UInt8 :=
  let prom := prometheusRender fixed snapshot 65536
  snprintf (65536 + 512) (metricsHead prom.ret ++ cstr prom.buf)

/-- The buffer has the whole text and its length is returned, or it does not fit and 0 is. -/
def RenderCorrect (fixed : FixedFormat) (snap : MonSnapshot) (bufsiz : UInt32) : Prop :=
  let rendered := prometheusRender fixed snap bufsiz
  (rendered.ret.toNat < bufsiz.toNat ∧ rendered.ret.toNat = (cstr rendered.buf).length ∧
      cstr rendered.buf = expositionText fixed snap ∧ literal "# EOF\n" <:+ cstr rendered.buf) ∨
    (rendered.ret = 0 ∧ bufsiz.toNat ≤ (expositionText fixed snap).length)

section Render

variable {fixed : FixedFormat} {snap : MonSnapshot} {bufsiz : UInt32}

theorem cstr_expositionText (hfixed : PrintsNumbers fixed) (snap : MonSnapshot) :
    cstr (expositionText fixed snap) = expositionText fixed snap :=
  cstr_eq_self (zero_notMem_expositionText hfixed snap)

theorem eof_suffix (fixed : FixedFormat) (snap : MonSnapshot) :
    literal "# EOF\n" <:+ expositionText fixed snap := by
  rw [expositionText, prometheusLines, List.flatMap_append, List.flatMap_singleton]
  exact List.suffix_append _ _

theorem renderCorrect_iff (hfixed : PrintsNumbers fixed) (hbufsiz : 1 ≤ bufsiz) :
    RenderCorrect fixed snap bufsiz ↔ (expositionText fixed snap).length < bufsiz.toNat := by
  constructor
  · intro h
    by_contra hlong
    have hrender := prometheusRender_of_le hbufsiz (Nat.not_lt.mp hlong)
    have hsize := bufsiz.toNat_lt
    rw [RenderCorrect, hrender] at h
    rcases h with ⟨hlt, -⟩ | ⟨hzero, -⟩
    · have hret : (4294967295 : UInt32).toNat = 4294967295 := rfl
      dsimp only at hlt
      omega
    · have hret : ¬(4294967295 : UInt32) = 0 := by decide
      exact hret hzero
  · intro hlt
    obtain ⟨hret, hbuf⟩ := prometheusRender_of_fits hlt
    rw [RenderCorrect, hret, hbuf, cstr_expositionText hfixed snap]
    exact Or.inl ⟨hlt, rfl, rfl, eof_suffix fixed snap⟩

end Render

theorem length_metricsHead_le (promLen : UInt32) : (metricsHead promLen).length ≤ 512 := by
  have hdigits := (length_decimal_le_iff (n := promLen.toNat) (k := 10) (by decide)).mpr
    (by have := promLen.toNat_lt; omega)
  have hstatus : (literal "HTTP/1.1 200 OK\r\n").length = 17 := by decide
  have htype : (literal "Content-Type: text/plain; version=0.0.4\r\n").length = 41 := by decide
  have hlength : (literal "Content-Length: ").length = 16 := by decide
  have hclose : (literal "Connection: close\r\n").length = 19 := by decide
  have hblank : (literal "\r\n").length = 2 := by decide
  simp only [metricsHead, List.length_append]
  omega

/-- The response has the right length exactly when the body has the length that is announced. -/
theorem contentLengthMatches_metricsHead_iff (promLen : UInt32) (body : List UInt8) :
    ContentLengthMatches (metricsHead promLen ++ body) ↔ body.length = promLen.toNat := by
  let headers : List (List UInt8) := [literal "Content-Type: text/plain; version=0.0.4\r",
    literal "Content-Length: " ++ decimal promLen.toNat ++ [carriageReturn],
    literal "Connection: close\r"]
  have htext : metricsHead promLen ++ body =
      (literal "HTTP/1.1 200 OK\r" :: headers ++ [[carriageReturn]]).flatMap (· ++ [newline]) ++
        body := by
    have hstatus : literal "HTTP/1.1 200 OK\r\n" = literal "HTTP/1.1 200 OK\r" ++ [newline] := rfl
    have htype : literal "Content-Type: text/plain; version=0.0.4\r\n" =
      literal "Content-Type: text/plain; version=0.0.4\r" ++ [newline] := rfl
    have hclose : literal "Connection: close\r\n" =
      literal "Connection: close\r" ++ [newline] := rfl
    have hblank : literal "\r\n" = [carriageReturn] ++ [newline] := rfl
    rw [metricsHead, hstatus, htype, hclose, hblank]
    simp [headers]
  have hnewline : ∀ line ∈ literal "HTTP/1.1 200 OK\r" :: headers, newline ∉ line := by
    simp only [headers, List.forall_mem_cons]
    exact ⟨by decide, by decide, newline_notMem_contentLength _, by decide, nofun⟩
  have hblank : ∀ line ∈ literal "HTTP/1.1 200 OK\r" :: headers, ¬Blank carriageReturn line := by
    simp only [headers, List.forall_mem_cons]
    exact ⟨by decide, by decide, not_blank_contentLength _, by decide, nofun⟩
  rw [htext, contentLengthMatches_message_iff hnewline hblank]
  constructor
  · intro hmem
    simp only [headers, List.mem_cons, List.not_mem_nil, or_false] at hmem
    rw [List.append_assoc] at hmem
    have hstart : literal "Content-Length: " <+:
      literal "Content-Length: " ++ (decimal body.length ++ [carriageReturn]) :=
        List.prefix_append _ _
    rcases hmem with htype | hlength | hclose
    · rw [htype] at hstart
      exact absurd hstart (by decide)
    · rw [← List.append_assoc] at hlength
      exact decimal_injective (List.append_cancel_left (List.append_cancel_right hlength))
    · rw [hclose] at hstart
      exact absurd hstart (by decide)
  · intro hlen
    rw [hlen]
    exact List.mem_cons_of_mem _ List.mem_cons_self

theorem contentLengthMatches_handleMetrics_iff {fixed : FixedFormat} (hfixed : PrintsNumbers fixed)
    (snapshot : MonSnapshot) :
    ContentLengthMatches (handleMetrics fixed snapshot) ↔
      (expositionText fixed snapshot).length < 65536 := by
  have hfits : ∀ (promLen : UInt32) {body : List UInt8}, body.length ≤ 65535 →
      snprintf (65536 + 512) (metricsHead promLen ++ body) = metricsHead promLen ++ body := by
    intro promLen body hbody
    have hhead := length_metricsHead_le promLen
    exact snprintf_of_lt (by rw [List.length_append]; omega)
  have hsize : (65536 : UInt32).toNat = 65536 := rfl
  by_cases hlt : (expositionText fixed snapshot).length < 65536
  · obtain ⟨hret, hbuf⟩ := prometheusRender_of_fits (hlt.trans_eq hsize.symm)
    rw [handleMetrics, hbuf, cstr_expositionText hfixed snapshot, hfits _ (by omega),
      contentLengthMatches_metricsHead_iff, hret]
    exact iff_of_true rfl hlt
  · -- the body is one byte shorter than its buffer, and 4294967295 is announced
    have hrender : prometheusRender fixed snapshot 65536 =
        ⟨4294967295, (expositionText fixed snapshot).take 65535⟩ :=
      prometheusRender_of_le (by decide) (hsize.trans_le (Nat.not_lt.mp hlt))
    have hcut : cstr ((expositionText fixed snapshot).take 65535) =
        (expositionText fixed snapshot).take 65535 :=
      cstr_eq_self fun hzero =>
        zero_notMem_expositionText hfixed snapshot (List.mem_of_mem_take hzero)
    have hlen : ((expositionText fixed snapshot).take 65535).length ≤ 65535 :=
      List.length_take_le _ _
    have hannounced : (4294967295 : UInt32).toNat = 4294967295 := rfl
    rw [handleMetrics, hrender]
    dsimp only
    rw [hcut, hfits _ hlen, contentLengthMatches_metricsHead_iff, hannounced]
    exact iff_of_false (by omega) hlt

/-- The rendered length, for a buffer of any size, and the one that the response announces,
are right exactly when the text fits. -/
theorem exportLength_iff {fixed : FixedFormat} (hfixed : PrintsNumbers fixed) (snap : MonSnapshot)
    {bufsiz : UInt32} (hbufsiz : 1 ≤ bufsiz) :
    (RenderCorrect fixed snap bufsiz ↔ (expositionText fixed snap).length < bufsiz.toNat) ∧
      (ContentLengthMatches (handleMetrics fixed snap) ↔
        (expositionText fixed snap).length < 65536) :=
  ⟨renderCorrect_iff hfixed hbufsiz, contentLengthMatches_handleMetrics_iff hfixed snap⟩

/-- Two channels and some alerts. -/
def twoChannels : MonSnapshot :=
  { MonSnapshot.zeroed with
    ipcChannels := Vector.ofFn fun i =>
      if i.val = 0 then ⟨literal "audio\\in", 7, 1, []⟩ else ⟨literal "camera", 12, 0, []⟩
    ipcCount := 2
    alertCount := 5
    alertsWarn := 4
    alertsCrit := 1 }

theorem exportLength_iff_twoChannels :
    (RenderCorrect zeroFixed twoChannels 65536 ↔
        (expositionText zeroFixed twoChannels).length < (65536 : UInt32).toNat) ∧
      (ContentLengthMatches (handleMetrics zeroFixed twoChannels) ↔
        (expositionText zeroFixed twoChannels).length < 65536) :=
  exportLength_iff printsNumbers_zeroFixed twoChannels (by decide)

/-- A buffer of one byte is too small, and 4294967295 is returned for it. -/
theorem not_renderCorrect_one :
    ¬RenderCorrect zeroFixed .zeroed 1 ∧
      (prometheusRender zeroFixed .zeroed 1).ret = 4294967295 := by
  have hlong : (1 : UInt32).toNat ≤ (expositionText zeroFixed .zeroed).length :=
    (eof_suffix zeroFixed .zeroed).length_le.trans' (by decide)
  constructor
  · intro h
    exact Nat.not_lt.mpr hlong
      ((renderCorrect_iff printsNumbers_zeroFixed (by decide)).mp h)
  · rw [prometheusRender_of_le (by decide) hlong]

end Monitoring

end Shinigami
