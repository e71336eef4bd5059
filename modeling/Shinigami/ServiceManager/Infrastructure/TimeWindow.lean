import Shinigami.ServiceManager.Infrastructure.Protocol
import Mathlib.Algebra.Order.Ring.Nat

/-!
# The timestamp window of a header

`sm_validate_header` compares a timestamp with two bounds. The bound against
stale messages is computed in `time_t`, the bound against messages from the
future in `uint32_t`, where it wraps around in the last minute of the 32-bit
range. `freshBounds` gives both as integers, and `smValidateHeader_eq_smOk_iff_bounds`
says that the validation is the comparison with them.
-/

namespace Shinigami

namespace ServiceManager

/-- The window that the two constants describe, over the integers. -/
def InTimeWindow (ts now : ℤ) : Prop :=
  now - smTimestampMaxAge ≤ ts ∧ ts ≤ now + smTimestampMaxSkew.toNat

instance (ts now : ℤ) : Decidable (InTimeWindow ts now) :=
  inferInstanceAs (Decidable (_ ∧ _))

def freshBounds (now : ℤ) : ℤ × ℤ :=
  (now - smTimestampMaxAge, (now + smTimestampMaxSkew.toNat) % 2 ^ 32)

theorem toNat_smTimestampMaxSkew : smTimestampMaxSkew.toNat = 60 := rfl

/-- The bound against the future, read as an integer, is reduced modulo `2 ^ 32`. -/
theorem toNat_ofInt_add_skew (now : ℤ) :
    ((UInt32.ofInt now + smTimestampMaxSkew).toNat : ℤ) =
      (now + smTimestampMaxSkew.toNat) % 2 ^ 32 := by
  rw [UInt32.toNat_add, UInt32.ofInt, UInt32.toNat_ofNat', toNat_smTimestampMaxSkew]
  omega

theorem SmHdr.fresh_iff_bounds (hdr : SmHdr) (now : ℤ) :
    hdr.Fresh now ↔ (freshBounds now).1 ≤ hdr.timestamp.toNat ∧
      (hdr.timestamp.toNat : ℤ) ≤ (freshBounds now).2 := by
  have hfuture : hdr.timestamp > UInt32.ofInt now + smTimestampMaxSkew ↔
      (freshBounds now).2 < hdr.timestamp.toNat := by
    rw [gt_iff_lt, UInt32.lt_iff_toNat_lt, ← Int.ofNat_lt, toNat_ofInt_add_skew]
    rfl
  constructor
  · rintro ⟨hnot_future, hnot_stale⟩
    exact ⟨not_lt.mp hnot_stale, not_lt.mp (fun h => hnot_future (hfuture.mpr h))⟩
  · rintro ⟨hage, hskew⟩
    exact ⟨fun h => not_lt.mpr hskew (hfuture.mp h), not_lt.mpr hage⟩

/-- On a header that is otherwise valid, the validation compares the timestamp
with the two bounds. -/
theorem smValidateHeader_eq_smOk_iff_bounds {hdr : SmHdr} (hwf : hdr.WellFormed)
    (now : ℤ) :
    smValidateHeader hdr (smHdrSize + hdr.length.toNat) now = smOk ↔
      (freshBounds now).1 ≤ hdr.timestamp.toNat ∧
        (hdr.timestamp.toNat : ℤ) ≤ (freshBounds now).2 := by
  rw [smValidateHeader_eq_smOk_iff, hdr.fresh_iff_bounds]
  exact and_iff_right hwf

theorem freshBounds_snd_of_lt {now : ℤ} (hnonneg : 0 ≤ now) (hlt : now + 60 < 2 ^ 32) :
    (freshBounds now).2 = now + 60 := by
  simp only [freshBounds, toNat_smTimestampMaxSkew]
  omega

/-- In the last minute of the 32-bit range the bound against the future is that
of the first minute. -/
theorem freshBounds_snd_of_le {now : ℤ} (hlt : now < 2 ^ 32) (hle : 2 ^ 32 ≤ now + 60) :
    (freshBounds now).2 = now + 60 - 2 ^ 32 := by
  simp only [freshBounds, toNat_smTimestampMaxSkew]
  omega

theorem smValidateHeader_ne_smOk_of_le {hdr : SmHdr} (hwf : hdr.WellFormed) {now : ℤ}
    (hlt : now < 2 ^ 32) (hle : 2 ^ 32 ≤ now + 60) :
    smValidateHeader hdr (smHdrSize + hdr.length.toNat) now ≠ smOk := by
  rw [Ne, smValidateHeader_eq_smOk_iff_bounds hwf, freshBounds_snd_of_le hlt hle]
  simp only [freshBounds, smTimestampMaxAge]
  omega

/-- The validation decides the window up to the last minute of the 32-bit range,
and from there on only for the timestamps that are too old. -/
theorem smValidateHeader_window_iff {hdr : SmHdr} (hwf : hdr.WellFormed) {now : ℤ}
    (hnonneg : 0 ≤ now) (hlt : now < 2 ^ 32) :
    (smValidateHeader hdr (smHdrSize + hdr.length.toNat) now = smOk ↔
        InTimeWindow hdr.timestamp.toNat now) ↔
      now + smTimestampMaxSkew.toNat < 2 ^ 32 ∨
        (hdr.timestamp.toNat : ℤ) < now - smTimestampMaxAge := by
  have hts : hdr.timestamp.toNat < 2 ^ 32 := hdr.timestamp.toNat_lt
  rw [toNat_smTimestampMaxSkew]
  by_cases hwrap : now + 60 < 2 ^ 32
  · refine iff_of_true ?_ (Or.inl hwrap)
    rw [smValidateHeader_eq_smOk_iff_bounds hwf, freshBounds_snd_of_lt hnonneg hwrap]
    rfl
  · have hrefused := smValidateHeader_ne_smOk_of_le hwf hlt (not_lt.mp hwrap)
    rw [iff_false_left hrefused, InTimeWindow, toNat_smTimestampMaxSkew]
    constructor
    · intro hout
      right
      omega
    · intro h
      omega

/-- A lookup request stamped with the largest `uint32_t`. -/
def lastSecondHdr : SmHdr where
  magic := smProtocolMagic
  version := smProtocolVersion
  msgType := smMsgLookup
  length := 64
  timestamp := 4294967295
  clientPid := 1
  nonce := 1
  hmac := List.replicate smHmacSize 0
  hmac_length := List.length_replicate

theorem lastSecondHdr_wellFormed : lastSecondHdr.WellFormed :=
  ⟨rfl, rfl, by decide, by decide⟩

theorem smValidateHeader_window_lastSecond :
    (smValidateHeader lastSecondHdr (smHdrSize + lastSecondHdr.length.toNat)
          1700000000 = smOk ↔
        InTimeWindow lastSecondHdr.timestamp.toNat 1700000000) ↔
      (1700000000 : ℤ) + smTimestampMaxSkew.toNat < 2 ^ 32 ∨
        (lastSecondHdr.timestamp.toNat : ℤ) < 1700000000 - smTimestampMaxAge :=
  smValidateHeader_window_iff lastSecondHdr_wellFormed (by decide) (by decide)

/-- In the last second of the range a header with the current time is refused. -/
theorem smValidateHeader_refuses_current :
    ¬∀ (hdr : SmHdr) (now : ℤ), hdr.WellFormed → 0 ≤ now → now < 2 ^ 32 →
      (smValidateHeader hdr (smHdrSize + hdr.length.toNat) now = smOk ↔
        InTimeWindow hdr.timestamp.toNat now) := by
  intro h
  have hlast := h lastSecondHdr 4294967295 lastSecondHdr_wellFormed (by decide) (by decide)
  have hwindow : InTimeWindow lastSecondHdr.timestamp.toNat 4294967295 := by decide
  exact absurd (hlast.mpr hwindow) (by decide)

end ServiceManager

end Shinigami
