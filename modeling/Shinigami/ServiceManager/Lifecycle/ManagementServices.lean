import Shinigami.Foundations.Json
import Shinigami.ServiceManager.Infrastructure.Content
import Shinigami.ServiceManager.Lifecycle.ManagementRequest
import Shinigami.ServiceManager.Lifecycle.Reload

/-!
# The list of services of the management interface

`handle_services` writes the body of the answer piece by piece into a buffer, and
`send_http_response` puts the headers in front of it in a second one. A body is a buffer with
a position (`Body`), and `snprintf` does not fail. The brackets at the end are written in
the wrong order: `not_text_handleServices` says that no registry is listed as JSON, and
`text_servicesText` that with the other order each is.
-/

namespace Shinigami

namespace ServiceManager

namespace Management

open CString TextLines Json

/-! ## The body -/

/-- `response_body` with `pos`. Behind the end of the buffer the room `max_len - pos` wraps,
and a write is out of bounds. -/
structure Body where
  buf : List UInt8
  pos : ℕ
  overrun : Bool

/-- `snprintf(response_body + pos, max_len - pos, text)`, which adds the length of the text to
the position. -/
def Body.print (maxLen : ℕ) (text : List UInt8) (b : Body) : Body :=
  let out := snprintf (maxLen - b.pos) text
  { buf :=
      if b.pos < maxLen then b.buf.take b.pos ++ out ++ 0 :: b.buf.drop (b.pos + out.length + 1)
      else b.buf
    pos := b.pos + text.length
    overrun := b.overrun || decide (maxLen < b.pos) }

def serviceText (e : ServiceEntry) : List UInt8 :=
  literal "\x7b\"name\":\"" ++ cstr e.name ++ literal "\",\"pid\":" ++
    signedDecimal (Int32.ofInt e.pid).toInt ++ literal ",\"status\":" ++
    signedDecimal e.status.number ++ literal "\x7d"

def truncatedText : List UInt8 := literal "\x7b\"name\":\"...(truncated)\"\x7d"

/-- The loop of `handle_services` from entry `i` on. The note about a truncation is written
at the position, but the position starts over. -/
def servicesLoop (maxLen : ℕ) (maxServices : ℤ) : ℕ → List ServiceEntry → Body → Body
  | _, [], b => b
  | i, e :: services, b =>
      if (i : ℤ) < maxServices then
        if maxLen ≤ b.pos + 100 then
          { b.print maxLen truncatedText with pos := truncatedText.length }
        else
          let b := if i > 0 then b.print maxLen (literal ",") else b
          servicesLoop maxLen maxServices (i + 1) services (b.print maxLen (serviceText e))
      else b

def maxServices (maxLen : ℕ) : ℤ := max 1 (((maxLen : ℤ) - 64).tdiv 100)

/-- `handle_services` on a buffer: the status code and the body. -/
def handleServices (r : Registry) (mallocOk : Bool) (maxLen : ℕ) (buf : List UInt8) : ℤ × Body :=
  let b : Body := ⟨buf, 0, false⟩
  match smRegistryGetAll r mallocOk with
  | none => (500, b.print maxLen (literal "\x7b\"error\":\"failed to get services\"\x7d"))
  | some services =>
      let b := b.print maxLen (literal "\x7b\"services\":[")
      (200, (servicesLoop maxLen (maxServices maxLen) 0 services b).print maxLen
        (literal "\x7d]"))

/-! ## The response -/

def statusText (statusCode : ℤ) : List UInt8 :=
  if statusCode = 400 then literal "400 Bad Request"
  else if statusCode = 401 then literal "401 Unauthorized"
  else if statusCode = 403 then literal "403 Forbidden"
  else if statusCode = 404 then literal "404 Not Found"
  else if statusCode = 405 then literal "405 Method Not Allowed"
  else if statusCode = 500 then literal "500 Internal Server Error"
  else literal "200 OK"

def responseText (statusCode : ℤ) (body : List UInt8) : List UInt8 :=
  literal "HTTP/1.1 " ++ signedDecimal statusCode ++ literal " " ++ statusText statusCode ++
    literal "\r\nContent-Type: application/json\r\nContent-Length: " ++ decimal body.length ++
    literal "\r\nConnection: close\r\n\r\n" ++ body

/-- `send_http_response`: what is handed to `send`. -/
def sendHttpResponse (statusCode : ℤ) (body : Option (List UInt8)) : List UInt8 :=
  snprintf 4096 (responseText statusCode (cstr (body.getD [])))

/-! ## What is to be answered -/

def key (name : String) : List StrPart := (literal name).map .byte

def serviceValue (e : ServiceEntry) : Value :=
  .object [(key "name", .string ((cstr e.name).map .byte)), (key "pid", .number e.pid),
    (key "status", .number e.status.number)]

def servicesValue (services : List ServiceEntry) : Value :=
  .object [(key "services", .array (services.map serviceValue))]

def messageBody (message : List UInt8) : List UInt8 :=
  [newline].intercalate
    (((message.splitOn newline).dropWhile fun line => ¬Blank carriageReturn line).drop 1)

/-- A header of the message gives the number of bytes of its body. -/
def ContentLengthMatches (message : List UInt8) : Prop :=
  literal "Content-Length: " ++ decimal (messageBody message).length ++ [carriageReturn] ∈
    headerBlock message

/-- The body is JSON and lists the registered services, and the response has its length. -/
def ServicesCorrect (r : Registry) (mallocOk : Bool) : Prop :=
  let (status, body) := handleServices r mallocOk 8192 (List.replicate 8192 0)
  body.overrun = false ∧ Text (cstr body.buf) (servicesValue r.entries) ∧
    ContentLengthMatches (sendHttpResponse status (some body.buf))

/-! ## Printing -/

structure Body.Holds (b : Body) (text : List UInt8) : Prop where
  pos : b.pos = text.length
  start : b.buf.take text.length = text
  overrun : b.overrun = false

section Print

variable {maxLen : ℕ} {b : Body} {text t : List UInt8}

theorem Body.Holds.buf_print (h : b.Holds text) (hlen : text.length + t.length < maxLen) :
    ∃ rest, (b.print maxLen t).buf = text ++ t ++ 0 :: rest := by
  have hfits : t.length < maxLen - b.pos := by
    rw [h.pos]
    omega
  refine ⟨b.buf.drop (b.pos + t.length + 1), ?_⟩
  unfold Body.print
  dsimp only
  rw [snprintf_of_lt hfits, if_pos (by omega), h.pos, h.start]

theorem Body.Holds.print (h : b.Holds text) (hlen : text.length + t.length < maxLen) :
    (b.print maxLen t).Holds (text ++ t) where
  pos := by
    rw [List.length_append, ← h.pos]
    rfl
  start := by
    obtain ⟨rest, hbuf⟩ := h.buf_print hlen
    rw [hbuf, List.take_left]
  overrun := by
    have hpos : ¬maxLen < b.pos := by
      rw [h.pos]
      omega
    simp only [Body.print, h.overrun, hpos, decide_false, Bool.or_false]

theorem Body.Holds.cstr_print (h : b.Holds text) (hlen : text.length + t.length < maxLen)
    (hzero : (0 : UInt8) ∉ text ++ t) : cstr (b.print maxLen t).buf = text ++ t := by
  obtain ⟨rest, hbuf⟩ := h.buf_print hlen
  have hall : ∀ c ∈ text ++ t, (c != 0) = true := by
    intro c hc
    simpa using fun h0 : c = 0 => hzero (h0 ▸ hc)
  rw [hbuf, cstr, List.takeWhile_append_of_pos hall, List.takeWhile_cons_of_neg (by decide),
    List.append_nil]

theorem Body.holds_nil (buf : List UInt8) : (⟨buf, 0, false⟩ : Body).Holds [] :=
  ⟨rfl, rfl, rfl⟩

end Print

/-! ## The entries -/

/-- The entries from number `i` on, with the commas between them. -/
def entriesText : ℕ → List ServiceEntry → List UInt8
  | _, [] => []
  | i, e :: services =>
      (if i > 0 then literal "," else []) ++ serviceText e ++ entriesText (i + 1) services

def servicesText (services : List ServiceEntry) (closing : List UInt8) : List UInt8 :=
  literal "\x7b\"services\":[" ++ entriesText 0 services ++ closing

theorem length_serviceText_le {e : ServiceEntry} (h : e.Valid) : (serviceText e).length ≤ 104 := by
  have hname := length_of_smValidateServiceName h.name
  have hpid := length_signedDecimal_le (x := (Int32.ofInt e.pid).toInt) (k := 10) (by decide)
    (by have := (Int32.ofInt e.pid).toInt_lt; have := (Int32.ofInt e.pid).le_toInt; omega)
  have hstatus : (signedDecimal e.status.number).length ≤ 1 + 1 :=
    length_signedDecimal_le (by decide) (by cases e.status <;> decide)
  have hsize : smMaxName = 64 := rfl
  have hopen : (literal "\x7b\"name\":\"").length = 9 := by decide
  have hpidKey : (literal "\",\"pid\":").length = 8 := by decide
  have hstatusKey : (literal ",\"status\":").length = 10 := by decide
  have hclose : (literal "\x7d").length = 1 := by decide
  simp only [serviceText, List.length_append]
  omega

theorem length_entriesText_le {services : List ServiceEntry} (h : ∀ e ∈ services, e.Valid)
    (i : ℕ) : (entriesText i services).length ≤ services.length * 105 := by
  induction services generalizing i with
  | nil => exact Nat.zero_le _
  | cons e services ih =>
      have hentry := length_serviceText_le (h e (by simp))
      have hrest := ih (fun e' he' => h e' (by simp [he'])) (i + 1)
      have hcomma : (if i > 0 then literal "," else []).length ≤ 1 := by
        split <;> decide
      rw [entriesText, List.length_append, List.length_append, List.length_cons]
      omega

theorem length_servicesText_le {services : List ServiceEntry} (h : ∀ e ∈ services, e.Valid)
    (closing : List UInt8) :
    (servicesText services closing).length ≤ 13 + services.length * 105 + closing.length := by
  have hentries := length_entriesText_le h 0
  have hopen : (literal "\x7b\"services\":[").length = 13 := by decide
  rw [servicesText, List.length_append, List.length_append]
  omega

theorem zero_notMem_signedDecimal (x : ℤ) : (0 : UInt8) ∉ signedDecimal x := by
  intro hmem
  rcases sign_or_digit_of_mem_signedDecimal hmem with h | ⟨h, -⟩
  · exact absurd h (by decide)
  · exact absurd h (by decide)

theorem zero_notMem_serviceText (e : ServiceEntry) : (0 : UInt8) ∉ serviceText e := by
  simp only [serviceText, List.mem_append, not_or]
  exact ⟨⟨⟨⟨⟨⟨by decide, zero_notMem_cstr _⟩, by decide⟩, zero_notMem_signedDecimal _⟩, by decide⟩,
    zero_notMem_signedDecimal _⟩, by decide⟩

theorem zero_notMem_entriesText (services : List ServiceEntry) (i : ℕ) :
    (0 : UInt8) ∉ entriesText i services := by
  induction services generalizing i with
  | nil => exact List.not_mem_nil
  | cons e services ih =>
      rw [entriesText, List.mem_append, List.mem_append, not_or, not_or]
      refine ⟨⟨?_, zero_notMem_serviceText e⟩, ih _⟩
      split <;> decide

theorem servicesLoop_holds {maxLen : ℕ} {cap : ℤ} {services : List ServiceEntry}
    (hvalid : ∀ e ∈ services, e.Valid) {i : ℕ} (hcap : ((i + services.length : ℕ) : ℤ) ≤ cap)
    {b : Body} {text : List UInt8} (h : b.Holds text)
    (hroom : text.length + services.length * 105 + 100 < maxLen) :
    (servicesLoop maxLen cap i services b).Holds (text ++ entriesText i services) := by
  induction services generalizing i b text with
  | nil =>
      rw [entriesText, List.append_nil]
      exact h
  | cons e services ih =>
      have hentry := length_serviceText_le (hvalid e (by simp))
      rw [List.length_cons] at hcap hroom
      have hpos := h.pos
      rw [servicesLoop, if_pos (by omega), if_neg (by omega), entriesText]
      dsimp only
      have hcomma : (literal ",").length = 1 := by decide
      have hbefore : (if i > 0 then b.print maxLen (literal ",") else b).Holds
          (text ++ if i > 0 then literal "," else []) := by
        split
        · exact h.print (by omega)
        · rw [List.append_nil]
          exact h
      have hshort : (text ++ if i > 0 then literal "," else []).length ≤ text.length + 1 := by
        rw [List.length_append]
        split
        · omega
        · exact Nat.le_succ _
      have hfits : (text ++ if i > 0 then literal "," else []).length + (serviceText e).length <
          maxLen := by omega
      have hrest := ih (fun e' he' => hvalid e' (by simp [he'])) (i := i + 1) (by omega)
        (hbefore.print hfits) (by rw [List.length_append]; omega)
      rwa [List.append_assoc, List.append_assoc, ← List.append_assoc _ (serviceText e)] at hrest

/-! ## The whole body -/

section Registered

variable {r : Registry}

theorem valid_of_mem_entries (hvalid : ContentValid r) : ∀ e ∈ r.entries, e.Valid := by
  intro e he
  obtain ⟨i, hi, rfl⟩ := List.mem_map.mp he
  exact hvalid i (List.mem_range.mp hi)

theorem smRegistryGetAll_eq_some {mallocOk : Bool} {services : List ServiceEntry}
    (h : smRegistryGetAll r mallocOk = some services) : services = r.entries := by
  unfold smRegistryGetAll at h
  split at h
  · rename_i hzero
    cases h
    rw [Registry.entries, hzero]
    rfl
  · split at h
    · cases h
      rfl
    · cases h

theorem handleServices_eq (hvalid : ContentValid r) (hcount : r.registryCount ≤ smMaxServices)
    {mallocOk : Bool} (hall : smRegistryGetAll r mallocOk = some r.entries)
    (buf : List UInt8) :
    (handleServices r mallocOk 8192 buf).1 = 200 ∧
      (handleServices r mallocOk 8192 buf).2.overrun = false ∧
      cstr (handleServices r mallocOk 8192 buf).2.buf =
        servicesText r.entries (literal "\x7d]") := by
  have hsize : smMaxServices = 32 := rfl
  have hentries := valid_of_mem_entries hvalid
  have hlen := length_servicesText_le hentries (literal "\x7d]")
  rw [servicesText, List.length_append, r.length_entries] at hlen
  have hopen : (literal "\x7b\"services\":[").length = 13 := by decide
  have hclose : (literal "\x7d]").length = 2 := by decide
  have hcap : maxServices 8192 = 81 := by decide
  have hopened : ((⟨buf, 0, false⟩ : Body).print 8192 (literal "\x7b\"services\":[")).Holds
      (literal "\x7b\"services\":[") :=
    (Body.holds_nil buf).print (by rw [hopen, List.length_nil]; omega)
  have hbody : (servicesLoop 8192 (maxServices 8192) 0 r.entries
      ((⟨buf, 0, false⟩ : Body).print 8192 (literal "\x7b\"services\":["))).Holds
        (literal "\x7b\"services\":[" ++ entriesText 0 r.entries) :=
    servicesLoop_holds hentries (by rw [r.length_entries, hcap]; omega) hopened
      (by rw [hopen, r.length_entries]; omega)
  have hfits : (literal "\x7b\"services\":[" ++ entriesText 0 r.entries).length +
      (literal "\x7d]").length < 8192 := by
    omega
  have hzero : (0 : UInt8) ∉ literal "\x7b\"services\":[" ++ entriesText 0 r.entries ++
      literal "\x7d]" := by
    simp only [List.mem_append, not_or]
    exact ⟨⟨by decide, zero_notMem_entriesText _ _⟩, by decide⟩
  simp only [handleServices, hall]
  exact ⟨trivial, (hbody.print hfits).overrun, hbody.cstr_print hfits hzero⟩

theorem handleServices_of_none {mallocOk : Bool} (hall : smRegistryGetAll r mallocOk = none)
    (buf : List UInt8) :
    cstr (handleServices r mallocOk 8192 buf).2.buf =
      literal "\x7b\"error\":\"failed to get services\"\x7d" := by
  have hlen : (literal "\x7b\"error\":\"failed to get services\"\x7d").length = 34 := by decide
  have hfits : ([] : List UInt8).length +
      (literal "\x7b\"error\":\"failed to get services\"\x7d").length < 8192 := by
    rw [hlen, List.length_nil]
    omega
  simp only [handleServices, hall]
  exact (Body.holds_nil buf).cstr_print hfits (by decide)

/-- No body lists the services: one ends with a bracket, the other has a different key. -/
theorem not_text_handleServices (hvalid : ContentValid r)
    (hcount : r.registryCount ≤ smMaxServices) (mallocOk : Bool) (buf : List UInt8) :
    ¬Text (cstr (handleServices r mallocOk 8192 buf).2.buf) (servicesValue r.entries) := by
  intro htext
  cases hall : smRegistryGetAll r mallocOk with
  | none =>
      rw [handleServices_of_none hall] at htext
      have hkey := head?_key_of_text_object htext
      exact absurd hkey (by decide)
  | some services =>
      rw [smRegistryGetAll_eq_some hall] at hall
      rw [(handleServices_eq hvalid hcount hall buf).2.2] at htext
      obtain ⟨b, hlast, hb⟩ := getLast?_text_object htext
      have hbracket : (servicesText r.entries (literal "\x7d]")).getLast? = some 93 := by
        rw [servicesText, List.getLast?_append]
        rfl
      rw [hbracket] at hlast
      cases hlast
      exact absurd hb (by decide)

end Registered

/-! ## With the brackets in order -/

theorem plainByte_of_nameChar {c : UInt8} (h : (isalnum c || c == 95 || c == 45) = true) :
    PlainByte c := by
  simp only [isalnum, PlainByte, Bool.or_eq_true, Bool.and_eq_true, decide_eq_true_eq,
    beq_iff_eq, UInt8.le_iff_toNat_le, ← UInt8.toNat_inj, ne_eq, UInt8.reduceToNat] at h ⊢
  omega

theorem denotes_serviceText {e : ServiceEntry} (h : e.Valid) (hlow : -2 ^ 31 ≤ e.pid)
    (hhigh : e.pid < 2 ^ 31) : Denotes (serviceText e) (serviceValue e) := by
  have hplain : ∀ c ∈ cstr e.name, PlainByte c := fun c hc =>
    plainByte_of_nameChar (nameChar_of_smValidateServiceName h.name c hc)
  have hname := (Denotes.string (stringBody_of_plain hplain)).text
  have hpid := (Denotes.number (number_signedDecimal e.pid)).text
  have hstatus := (Denotes.number (number_signedDecimal e.status.number)).text
  have hnamePlain : ∀ b ∈ literal "name", PlainByte b := plain_of_all (by decide)
  have hpidPlain : ∀ b ∈ literal "pid", PlainByte b := plain_of_all (by decide)
  have hstatusPlain : ∀ b ∈ literal "status", PlainByte b := plain_of_all (by decide)
  have hobject := Denotes.object (Members.cons_of_plain hnamePlain hname
    (Members.cons_of_plain hpidPlain hpid (Members.of_plain hstatusPlain hstatus)))
  have hopen : literal "\x7b\"name\":\"" = 123 :: (quoted (literal "name") ++ [58, 34]) := by
    decide
  have hpidKey : literal "\",\"pid\":" = 34 :: 44 :: (quoted (literal "pid") ++ [58]) := by decide
  have hstatusKey : literal ",\"status\":" = 44 :: (quoted (literal "status") ++ [58]) := by
    decide
  have hclose : literal "\x7d" = [125] := by decide
  have htext : serviceText e = 123 :: (quoted (literal "name") ++ 58 :: quoted (cstr e.name) ++
      44 :: (quoted (literal "pid") ++ 58 :: signedDecimal e.pid ++
        44 :: (quoted (literal "status") ++ 58 :: signedDecimal e.status.number)) ++ [125]) := by
    rw [serviceText, Int32.toInt_ofInt_of_le hlow hhigh, hopen, hpidKey, hstatusKey, hclose,
      quoted.eq_def (cstr e.name)]
    simp only [List.append_assoc, List.cons_append, List.nil_append]
  rw [htext]
  exact hobject

theorem elements_entriesText {e : ServiceEntry} {services : List ServiceEntry}
    (h : ∀ e' ∈ e :: services, Denotes (serviceText e') (serviceValue e')) (i : ℕ) :
    Elements (serviceText e ++ entriesText (i + 1) services)
      (serviceValue e :: services.map serviceValue) := by
  have hentry := (h e (by simp)).text
  induction services generalizing e i with
  | nil =>
      rw [entriesText, List.append_nil]
      exact Elements.one hentry
  | cons e' services ih =>
      have hcomma : literal "," = [44] := by decide
      have hrest := ih (fun e'' he'' => h e'' (List.mem_cons_of_mem _ he'')) (i + 1)
        (h e' (by simp)).text
      rw [entriesText, if_pos (Nat.succ_pos i), hcomma, List.append_assoc]
      exact Elements.cons hentry hrest

/-- With the brackets the other way round the body would list the services. -/
theorem text_servicesText {services : List ServiceEntry} (hvalid : ∀ e ∈ services, e.Valid)
    (hlow : ∀ e ∈ services, -2 ^ 31 ≤ e.pid) (hhigh : ∀ e ∈ services, e.pid < 2 ^ 31) :
    Text (servicesText services (literal "]\x7d")) (servicesValue services) := by
  have hdenotes : ∀ e ∈ services, Denotes (serviceText e) (serviceValue e) := fun e he =>
    denotes_serviceText (hvalid e he) (hlow e he) (hhigh e he)
  have harray : Denotes (91 :: (entriesText 0 services ++ [93]))
      (.array (services.map serviceValue)) := by
    cases services with
    | nil => exact Denotes.emptyArray white_nil
    | cons e services => exact Denotes.array (elements_entriesText hdenotes 0)
  have hplain : ∀ b ∈ literal "services", PlainByte b := plain_of_all (by decide)
  have hobject := Denotes.object (Members.of_plain hplain harray.text)
  have hopen : literal "\x7b\"services\":[" = 123 :: (quoted (literal "services") ++ [58, 91]) := by
    decide
  have hclose : literal "]\x7d" = [93, 125] := by decide
  have htext : servicesText services (literal "]\x7d") =
      123 :: (quoted (literal "services") ++ 58 :: 91 :: (entriesText 0 services ++ [93]) ++
        [125]) := by
    rw [servicesText, hopen, hclose]
    simp only [List.append_assoc, List.cons_append, List.nil_append]
  rw [htext]
  exact hobject.text

/-! ## The length of the body -/

theorem newline_notMem_statusText (statusCode : ℤ) : newline ∉ statusText statusCode := by
  unfold statusText
  repeat' split
  all_goals decide

theorem newline_notMem_decimal (n : ℕ) : newline ∉ decimal n := by
  intro hmem
  exact absurd (digit_of_mem_decimal hmem).1 (by decide)

theorem newline_notMem_signedDecimal (x : ℤ) : newline ∉ signedDecimal x := by
  intro hmem
  rcases sign_or_digit_of_mem_signedDecimal hmem with h | ⟨h, -⟩
  · exact absurd h (by decide)
  · exact absurd h (by decide)

theorem splitOn_message {head : List (List UInt8)} (hhead : ∀ line ∈ head, newline ∉ line)
    (body : List UInt8) :
    ((head ++ [[carriageReturn]]).flatMap (· ++ [newline]) ++ body).splitOn newline =
      head ++ [carriageReturn] :: body.splitOn newline := by
  have hlines : ∀ line ∈ head ++ [[carriageReturn]], newline ∉ line := by
    intro line hline
    rcases List.mem_append.mp hline with hline | hline
    · exact hhead line hline
    · rw [List.mem_singleton.mp hline]
      decide
  rw [splitOn_flatMap_lines hlines, List.append_assoc, List.singleton_append]

/-- A header gives the length of the body exactly when one of its lines says so, whatever the
body is. -/
theorem contentLengthMatches_message_iff {start : List UInt8} {headers : List (List UInt8)}
    (hnewline : ∀ line ∈ start :: headers, newline ∉ line)
    (hblank : ∀ line ∈ start :: headers, ¬Blank carriageReturn line) (body : List UInt8) :
    ContentLengthMatches
        ((start :: headers ++ [[carriageReturn]]).flatMap (· ++ [newline]) ++ body) ↔
      literal "Content-Length: " ++ decimal body.length ++ [carriageReturn] ∈ headers := by
  have hend : ¬¬Blank carriageReturn [carriageReturn] := not_not.mpr (Or.inr rfl)
  have hbody : messageBody
      ((start :: headers ++ [[carriageReturn]]).flatMap (· ++ [newline]) ++ body) = body := by
    rw [messageBody, splitOn_message hnewline,
      List.dropWhile_append_of_pos fun line hline => by simpa using hblank line hline,
      List.dropWhile_cons_of_neg (by simpa using hend), List.drop_one, List.tail_cons,
      List.intercalate_splitOn]
  have hheaders : headerBlock
      ((start :: headers ++ [[carriageReturn]]).flatMap (· ++ [newline]) ++ body) = headers := by
    rw [headerBlock, splitOn_message hnewline, List.cons_append, List.drop_one, List.tail_cons,
      List.takeWhile_append_of_pos fun line hline => by
        simpa using hblank line (List.mem_cons_of_mem _ hline),
      List.takeWhile_cons_of_neg (by simpa using hend), List.append_nil]
  rw [ContentLengthMatches, hbody, hheaders]

theorem not_blank_of_head? {line : List UInt8} {b : UInt8} (h : line.head? = some b)
    (hb : b ≠ carriageReturn) : ¬Blank carriageReturn line := by
  rintro (rfl | rfl)
  · cases h
  · exact hb (Option.some.inj h).symm

theorem newline_notMem_contentLength (n : ℕ) :
    newline ∉ literal "Content-Length: " ++ decimal n ++ [carriageReturn] := by
  simp only [List.mem_append, not_or]
  exact ⟨⟨by decide, newline_notMem_decimal _⟩, by decide⟩

theorem not_blank_contentLength (n : ℕ) :
    ¬Blank carriageReturn (literal "Content-Length: " ++ decimal n ++ [carriageReturn]) := by
  have hhead : (literal "Content-Length: " ++ decimal n ++ [carriageReturn]).head? = some 67 := by
    rw [List.append_assoc, List.head?_append_of_ne_nil _ (by decide)]
    decide
  exact not_blank_of_head? hhead (by decide)

theorem contentLengthMatches_responseText (statusCode : ℤ) (body : List UInt8) :
    ContentLengthMatches (responseText statusCode body) := by
  let start : List UInt8 := literal "HTTP/1.1 " ++ signedDecimal statusCode ++ literal " " ++
    statusText statusCode ++ [carriageReturn]
  let headers : List (List UInt8) := [literal "Content-Type: application/json\r",
    literal "Content-Length: " ++ decimal body.length ++ [carriageReturn],
    literal "Connection: close\r"]
  have hstart : newline ∉ start := by
    simp only [start, List.mem_append, not_or]
    exact ⟨⟨⟨⟨by decide, newline_notMem_signedDecimal _⟩, by decide⟩,
      newline_notMem_statusText _⟩, by decide⟩
  have hstatus : ¬Blank carriageReturn start := by
    have hhead : start.head? = some 72 := by
      simp only [start, List.append_assoc]
      rw [List.head?_append_of_ne_nil _ (by decide)]
      decide
    exact not_blank_of_head? hhead (by decide)
  have htype : literal "\r\nContent-Type: application/json\r\nContent-Length: " =
      [carriageReturn] ++ newline :: (literal "Content-Type: application/json\r" ++
        newline :: literal "Content-Length: ") := by decide
  have hclose : literal "\r\nConnection: close\r\n\r\n" =
      [carriageReturn] ++ newline :: (literal "Connection: close\r" ++
        newline :: ([carriageReturn] ++ [newline])) := by decide
  have htext : responseText statusCode body =
      (start :: headers ++ [[carriageReturn]]).flatMap (· ++ [newline]) ++ body := by
    rw [responseText, htype, hclose]
    simp [start, headers]
  have hnewline : ∀ line ∈ start :: headers, newline ∉ line := by
    simp only [headers, List.forall_mem_cons]
    exact ⟨hstart, by decide, newline_notMem_contentLength _, by decide, nofun⟩
  have hblank : ∀ line ∈ start :: headers, ¬Blank carriageReturn line := by
    simp only [headers, List.forall_mem_cons]
    exact ⟨hstatus, by decide, not_blank_contentLength _, by decide, nofun⟩
  rw [htext, contentLengthMatches_message_iff hnewline hblank]
  exact List.mem_cons_of_mem _ List.mem_cons_self

theorem contentLengthMatches_sendHttpResponse {statusCode : ℤ} {body : List UInt8}
    (h : (responseText statusCode (cstr body)).length < 4096) :
    ContentLengthMatches (sendHttpResponse statusCode (some body)) := by
  rw [sendHttpResponse, Option.getD_some, snprintf_of_lt h]
  exact contentLengthMatches_responseText statusCode (cstr body)

theorem length_responseText_le (statusCode : ℤ) (body : List UInt8) :
    (responseText statusCode body).length ≤
      108 + (signedDecimal statusCode).length + (decimal body.length).length + body.length := by
  have hversion : (literal "HTTP/1.1 ").length = 9 := by decide
  have hblank : (literal " ").length = 1 := by decide
  have hstatus : (statusText statusCode).length ≤ 25 := by
    unfold statusText
    repeat' split
    all_goals decide
  have htype : (literal "\r\nContent-Type: application/json\r\nContent-Length: ").length = 50 := by
    decide
  have hclose : (literal "\r\nConnection: close\r\n\r\n").length = 23 := by decide
  simp only [responseText, List.length_append]
  omega

theorem contentLengthMatches_handleServices {r : Registry} (hvalid : ContentValid r)
    (hcount : r.registryCount ≤ smMaxServices) (mallocOk : Bool) (buf : List UInt8) :
    ContentLengthMatches (sendHttpResponse (handleServices r mallocOk 8192 buf).1
      (some (handleServices r mallocOk 8192 buf).2.buf)) := by
  apply contentLengthMatches_sendHttpResponse
  cases hall : smRegistryGetAll r mallocOk with
  | none =>
      have hstatus : (handleServices r mallocOk 8192 buf).1 = 500 := by
        simp only [handleServices, hall]
      have hlen : (literal "\x7b\"error\":\"failed to get services\"\x7d").length = 34 := by
        decide
      have hcode : (signedDecimal 500).length = 3 := by decide
      have hdigits : (decimal 34).length = 2 := by decide
      have htext := length_responseText_le 500
        (literal "\x7b\"error\":\"failed to get services\"\x7d")
      rw [hlen, hdigits] at htext
      rw [handleServices_of_none hall, hstatus]
      omega
  | some services =>
      rw [smRegistryGetAll_eq_some hall] at hall
      obtain ⟨hstatus, -, hbody⟩ := handleServices_eq hvalid hcount hall buf
      have hsize : smMaxServices = 32 := rfl
      have hclose : (literal "\x7d]").length = 2 := by decide
      have hlen := length_servicesText_le (valid_of_mem_entries hvalid) (literal "\x7d]")
      rw [r.length_entries] at hlen
      have hdigits : (decimal (servicesText r.entries (literal "\x7d]")).length).length ≤ 4 :=
        (length_decimal_le_iff (by decide)).mpr (by omega)
      have hcode : (signedDecimal 200).length = 3 := by decide
      have htext := length_responseText_le 200 (servicesText r.entries (literal "\x7d]"))
      rw [hstatus, hbody]
      omega

/-- No registry that is reached through requests is listed as JSON. -/
theorem not_servicesCorrect_serverRun (start : Timespec) (events : List Event) (mallocOk : Bool) :
    ¬ServicesCorrect (serverRun start events).registry mallocOk := by
  rintro ⟨-, htext, -⟩
  exact not_text_handleServices (contentValid_serverRun start events)
    (registryInv_serverRun start events).count_le mallocOk _ htext

/-- The list without any service. -/
theorem not_servicesCorrect_empty : ¬ServicesCorrect Registry.zero true := by
  rintro ⟨-, htext, -⟩
  have hvalid : ContentValid Registry.zero := fun i hi => absurd hi (Nat.not_lt_zero i)
  exact not_text_handleServices hvalid (Nat.zero_le _) true _ htext

end Management

end ServiceManager

end Shinigami
