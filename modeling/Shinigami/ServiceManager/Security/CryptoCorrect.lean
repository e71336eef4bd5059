import Mathlib.Data.List.GetD
import Shinigami.Foundations.SecureHash
import Shinigami.ServiceManager.Security.Crypto

/-!
# The hash and the keyed hash of `sm_crypto.c`

The functions on `uint32_t`, the schedule kept in one array, the loop that fills the
block buffer byte by byte and the two ways to end compute the SHA-256 of the standard,
and `sm_hmac_sha256` the HMAC over it. The bit count wraps around at 64 bits, as the
length field does, so that this holds for messages of every length.
-/

namespace Shinigami

namespace ServiceManager

def Sha256State.value (s : Sha256State) : Sha256.HashValue where
  a := s.a.toBitVec
  b := s.b.toBitVec
  c := s.c.toBitVec
  d := s.d.toBitVec
  e := s.e.toBitVec
  f := s.f.toBitVec
  g := s.g.toBitVec
  h := s.h.toBitVec

section Words

theorem toBitVec_rotr32 (x : UInt32) {n : UInt32} (hpos : 0 < n.toNat) (hlt : n.toNat < 32) :
    (rotr32 x n).toBitVec = x.toBitVec.rotateRight n.toNat := by
  have hright : (n.toBitVec % 32).toNat = n.toNat := Nat.mod_eq_of_lt hlt
  have hleft : ((32 - n).toBitVec % 32).toNat = 32 - n.toNat := by
    have hsub : (32 - n).toNat = 32 - n.toNat :=
      UInt32.toNat_sub_of_le _ _ (UInt32.le_iff_toNat_le.mpr hlt.le)
    exact (congrArg (· % 32) hsub).trans (Nat.mod_eq_of_lt (by omega))
  rw [rotr32, UInt32.toBitVec_or, UInt32.toBitVec_shiftRight, UInt32.toBitVec_shiftLeft,
    BitVec.ushiftRight_eq', BitVec.shiftLeft_eq', hright, hleft, BitVec.rotateRight_def,
    Nat.mod_eq_of_lt hlt]

theorem toBitVec_ch (x y z : UInt32) :
    (ch x y z).toBitVec = Sha256.ch x.toBitVec y.toBitVec z.toBitVec := rfl

theorem toBitVec_maj (x y z : UInt32) :
    (maj x y z).toBitVec = Sha256.maj x.toBitVec y.toBitVec z.toBitVec := rfl

theorem toBitVec_sigma0 (x : UInt32) :
    (sigma0 x).toBitVec = Sha256.bigSigma0 x.toBitVec := by
  rw [sigma0, UInt32.toBitVec_xor, UInt32.toBitVec_xor, toBitVec_rotr32 x (by decide) (by decide),
    toBitVec_rotr32 x (by decide) (by decide), toBitVec_rotr32 x (by decide) (by decide)]
  rfl

theorem toBitVec_sigma1 (x : UInt32) :
    (sigma1 x).toBitVec = Sha256.bigSigma1 x.toBitVec := by
  rw [sigma1, UInt32.toBitVec_xor, UInt32.toBitVec_xor, toBitVec_rotr32 x (by decide) (by decide),
    toBitVec_rotr32 x (by decide) (by decide), toBitVec_rotr32 x (by decide) (by decide)]
  rfl

theorem toBitVec_gamma0 (x : UInt32) :
    (gamma0 x).toBitVec = Sha256.smallSigma0 x.toBitVec := by
  rw [gamma0, UInt32.toBitVec_xor, UInt32.toBitVec_xor, toBitVec_rotr32 x (by decide) (by decide),
    toBitVec_rotr32 x (by decide) (by decide)]
  rfl

theorem toBitVec_gamma1 (x : UInt32) :
    (gamma1 x).toBitVec = Sha256.smallSigma1 x.toBitVec := by
  rw [gamma1, UInt32.toBitVec_xor, UInt32.toBitVec_xor, toBitVec_rotr32 x (by decide) (by decide),
    toBitVec_rotr32 x (by decide) (by decide)]
  rfl

theorem sha256K_eq : sha256K.map UInt32.toBitVec = Sha256.roundConstants := by
  decide +kernel

theorem sha256H0_eq : sha256H0.value = Sha256.initialHash := by
  decide +kernel

theorem toNat_shiftByte (b : UInt8) {k : UInt32} (hk : k.toNat ≤ 24) :
    (b.toUInt32 <<< k).toNat = 2 ^ k.toNat * b.toNat := by
  have hb := b.toNat_lt
  have hle : 2 ^ k.toNat ≤ 2 ^ 24 := Nat.pow_le_pow_right (by omega) hk
  rw [UInt32.toNat_shiftLeft, UInt8.toNat_toUInt32, Nat.mod_eq_of_lt (by omega : k.toNat < 32),
    Nat.shiftLeft_eq, Nat.mul_comm]
  refine Nat.mod_eq_of_lt ?_
  calc 2 ^ k.toNat * b.toNat ≤ 2 ^ 24 * b.toNat := Nat.mul_le_mul_right _ hle
    _ < 2 ^ 32 := by omega

theorem toBitVec_blockWord (b0 b1 b2 b3 : UInt8) (bytes : List UInt8) :
    ((b0.toUInt32 <<< 24) ||| (b1.toUInt32 <<< 16) ||| (b2.toUInt32 <<< 8) |||
        b3.toUInt32).toBitVec =
      BitVec.ofNat 32
        (bitsNat ((byteBits (b0 :: b1 :: b2 :: b3 :: bytes)).take 32)) := by
  have hb0 := b0.toNat_lt
  have hb1 := b1.toNat_lt
  have hb2 := b2.toNat_lt
  have hb3 := b3.toNat_lt
  have htake : (byteBits (b0 :: b1 :: b2 :: b3 :: bytes)).take 32 =
      natBits 8 b0.toNat ++ natBits 8 b1.toNat ++ natBits 8 b2.toNat ++ natBits 8 b3.toNat := by
    simp only [byteBits_cons, ← List.append_assoc]
    exact List.take_left' (by simp only [List.length_append, length_natBits])
  have hor : ((b0.toUInt32 <<< 24) ||| (b1.toUInt32 <<< 16) ||| (b2.toUInt32 <<< 8) |||
      b3.toUInt32).toNat =
        2 ^ 8 * (2 ^ 8 * (2 ^ 8 * b0.toNat + b1.toNat) + b2.toNat) + b3.toNat := by
    have h24 := Nat.two_pow_add_eq_or_of_lt (i := 24) (b := 2 ^ 16 * b1.toNat) (by omega) b0.toNat
    have h16 := Nat.two_pow_add_eq_or_of_lt (i := 16) (b := 2 ^ 8 * b2.toNat) (by omega)
      (2 ^ 8 * b0.toNat + b1.toNat)
    have h8 := Nat.two_pow_add_eq_or_of_lt (i := 8) (b := b3.toNat) (by omega)
      (2 ^ 8 * (2 ^ 8 * b0.toNat + b1.toNat) + b2.toNat)
    calc ((b0.toUInt32 <<< 24) ||| (b1.toUInt32 <<< 16) ||| (b2.toUInt32 <<< 8) |||
          b3.toUInt32).toNat
      _ = (2 ^ 24 * b0.toNat ||| 2 ^ 16 * b1.toNat) ||| 2 ^ 8 * b2.toNat ||| b3.toNat := by
          rw [UInt32.toNat_or, UInt32.toNat_or, UInt32.toNat_or,
            toNat_shiftByte b0 (by decide), toNat_shiftByte b1 (by decide),
            toNat_shiftByte b2 (by decide), UInt8.toNat_toUInt32]
          rfl
      _ = 2 ^ 16 * (2 ^ 8 * b0.toNat + b1.toNat) ||| 2 ^ 8 * b2.toNat ||| b3.toNat := by
          rw [← h24]
          congr 2
          ring
      _ = 2 ^ 8 * (2 ^ 8 * (2 ^ 8 * b0.toNat + b1.toNat) + b2.toNat) ||| b3.toNat := by
          rw [← h16]
          congr 1
          ring
      _ = _ := h8.symm
  apply BitVec.eq_of_toNat_eq
  rw [UInt32.toNat_toBitVec, hor, htake, bitsNat_append, bitsNat_append, bitsNat_append]
  simp only [bitsNat_natBits, length_natBits, BitVec.toNat_ofNat]
  omega
end Words

section Compress

theorem map_blockWords (bytes : List UInt8) :
    (blockWords bytes).map UInt32.toBitVec =
      Sha256.parseWords (bytes.length / 4) (byteBits bytes) := by
  induction bytes using blockWords.induct with
  | case1 b0 b1 b2 b3 rest ih =>
      have hdrop : (byteBits (b0 :: b1 :: b2 :: b3 :: rest)).drop 32 = byteBits rest :=
        (byteBits_drop 4 (b0 :: b1 :: b2 :: b3 :: rest)).symm
      have hcount : (b0 :: b1 :: b2 :: b3 :: rest).length / 4 = rest.length / 4 + 1 := by
        simp only [List.length_cons]
        omega
      rw [blockWords, List.map_cons, ih, hcount, Sha256.parseWords, hdrop, toBitVec_blockWord]
  | case2 bytes hshort =>
      have hlen : bytes.length / 4 = 0 := by
        match bytes with
        | [] => rfl
        | [_] => simp
        | [_, _] => simp
        | [_, _, _] => simp
        | b0 :: b1 :: b2 :: b3 :: rest => exact absurd rfl (hshort b0 b1 b2 b3 rest)
      rw [hlen, blockWords, Sha256.parseWords]
      · rfl
      · exact hshort

theorem length_messageSchedule {w : List UInt32} (hw : w.length = 16) (n : ℕ) :
    (messageSchedule w n).length = 16 + n := by
  induction n with
  | zero => exact hw
  | succ n ih => rw [messageSchedule, List.length_append, ih]; rfl

theorem messageSchedule_eq {w : List UInt32} (hw : w.length = 16) {n t : ℕ} (ht : t < 16 + n) :
    ((messageSchedule w n).getD t 0).toBitVec =
      Sha256.schedule (w.map UInt32.toBitVec) t := by
  induction n generalizing t with
  | zero =>
      rw [Sha256.schedule, if_pos ht, messageSchedule]
      exact (List.getD_map w 0 UInt32.toBitVec).symm
  | succ n ih =>
      have hlen := length_messageSchedule hw n
      rcases Nat.lt_or_ge t (16 + n) with hlt | hge
      · rw [messageSchedule, List.getD_append _ _ _ _ (by omega)]
        exact ih hlt
      · obtain rfl : t = 16 + n := by omega
        rw [messageSchedule, List.getD_append_right _ _ _ _ (by omega), hlen, Nat.sub_self,
          List.getD_cons_zero, UInt32.toBitVec_add, UInt32.toBitVec_add, UInt32.toBitVec_add,
          toBitVec_gamma1, toBitVec_gamma0, ih (by omega), ih (by omega), ih (by omega),
          ih (by omega)]
        conv_rhs => rw [Sha256.schedule, if_neg (by omega)]

theorem value_sha256Round (s : Sha256State) (k w : UInt32) :
    (sha256Round s (k, w)).value = Sha256.round s.value k.toBitVec w.toBitVec := by
  simp only [sha256Round, Sha256State.value, Sha256.round, UInt32.toBitVec_add,
    toBitVec_sigma0, toBitVec_sigma1, toBitVec_ch, toBitVec_maj]

theorem value_foldl_sha256Round (st : Sha256State) {m : List Sha256.Word} {w : List UInt32}
    (hlen : w.length = 64)
    (hw : ∀ t < 64, (w.getD t 0).toBitVec = Sha256.schedule m t) {n : ℕ} (hn : n ≤ 64) :
    (((sha256K.zip w).take n).foldl sha256Round st).value =
      Sha256.rounds m st.value n := by
  have hK : sha256K.length = 64 := rfl
  induction n with
  | zero => rfl
  | succ n ih =>
      have hround : (sha256K.zip w)[n]? = some (sha256K.getD n 0, w.getD n 0) := by
        rw [List.getElem?_zip_eq_some]
        simp [List.getD_eq_getElem?_getD, hK, hlen, show n < 64 by omega]
      have hconst : (sha256K.getD n 0).toBitVec = Sha256.roundConstants.getD n 0 := by
        rw [← sha256K_eq]
        exact (List.getD_map sha256K 0 UInt32.toBitVec).symm
      rw [List.take_add_one, List.foldl_append, hround, Option.toList_some, List.foldl_cons,
        List.foldl_nil, value_sha256Round, ih (by omega), hconst, hw n (by omega),
        Sha256.rounds]

/-- `sha256_compress` is the computation of the standard on the bits of the block. -/
theorem value_sha256Compress (st : Sha256State) {block : List UInt8}
    (hblock : block.length = 64) :
    (sha256Compress st block).value = Sha256.compress st.value (byteBits block) := by
  have hmap := map_blockWords block
  rw [hblock] at hmap
  have hwords : (blockWords block).length = 16 := by
    have hlen := congrArg List.length hmap
    rw [List.length_map] at hlen
    exact hlen
  have hrounds := value_foldl_sha256Round st (m := Sha256.parseWords 16 (byteBits block))
    (length_messageSchedule hwords 48)
    (fun t ht => (messageSchedule_eq hwords ht).trans (by rw [hmap])) (Nat.le_refl 64)
  rw [List.take_of_length_le (by
    rw [List.length_zip, length_messageSchedule hwords]
    exact Nat.min_le_right _ _)] at hrounds
  rw [Sha256.compress, ← hrounds]
  simp only [sha256Compress, Sha256State.value, UInt32.toBitVec_add]

end Compress

section Bytes

theorem writeBe32_eq (val : UInt32) : writeBe32 val = Sha256.wordBytes val.toBitVec := by
  have hbyte : ∀ k : UInt32, k.toNat < 32 →
      (val >>> k).toUInt8 = .ofBitVec (val.toBitVec.extractLsb' k.toNat 8) := by
    intro k hk
    apply UInt8.toBitVec_inj.mp
    have hshift : (k.toBitVec % 32).toNat = k.toNat := Nat.mod_eq_of_lt hk
    rw [UInt32.toBitVec_toUInt8, UInt32.toBitVec_shiftRight, BitVec.ushiftRight_eq', hshift]
    rfl
  rw [writeBe32, hbyte 24 (by decide), hbyte 16 (by decide), hbyte 8 (by decide)]
  rfl

theorem byteBits_writeBe64 (val : UInt64) : byteBits (writeBe64 val) = natBits 64 val.toNat := by
  have hbyte : ∀ k : UInt64, k.toNat < 64 →
      natBits 8 (val >>> k).toUInt8.toNat = natBits 8 (val.toNat >>> k.toNat) := by
    intro k hk
    rw [UInt64.toNat_toUInt8, natBits_mod (Nat.le_refl 8), UInt64.toNat_shiftRight,
      Nat.mod_eq_of_lt hk]
  have hlast : natBits 8 val.toUInt8.toNat = natBits 8 val.toNat := by
    rw [UInt64.toNat_toUInt8, natBits_mod (Nat.le_refl 8)]
  have hsplit : natBits 64 val.toNat =
      natBits 8 (val.toNat >>> 56) ++ (natBits 8 (val.toNat >>> 48) ++
        (natBits 8 (val.toNat >>> 40) ++ (natBits 8 (val.toNat >>> 32) ++
          (natBits 8 (val.toNat >>> 24) ++ (natBits 8 (val.toNat >>> 16) ++
            (natBits 8 (val.toNat >>> 8) ++ natBits 8 val.toNat)))))) := by
    rw [natBits_add 8 56, natBits_add 8 48, natBits_add 8 40, natBits_add 8 32,
      natBits_add 8 24, natBits_add 8 16, natBits_add 8 8]
  simp only [writeBe64, byteBits, List.flatMap_cons, List.flatMap_nil, List.append_nil]
  rw [hbyte 56 (by decide), hbyte 48 (by decide), hbyte 40 (by decide), hbyte 32 (by decide),
    hbyte 24 (by decide), hbyte 16 (by decide), hbyte 8 (by decide), hlast, hsplit]
  rfl

end Bytes

section Stream

theorem foldl_sha256Absorb (data : List UInt8) (st : Sha256State) (buf : List UInt8)
    (bitCount : UInt64) :
    data.foldl sha256Absorb ⟨st, buf, bitCount⟩ =
      ⟨(data.foldl (absorb 64 sha256Compress) (st, buf)).1,
        (data.foldl (absorb 64 sha256Compress) (st, buf)).2, bitCount⟩ := by
  induction data generalizing st buf with
  | nil => rfl
  | cons byte data ih =>
      rw [List.foldl_cons, List.foldl_cons, sha256Absorb, absorb]
      split_ifs
      · exact ih _ _
      · exact ih _ _

theorem foldl_sha256Update (chunks : List (List UInt8)) :
    chunks.foldl sha256Update sha256Init =
      ⟨(chunks.flatten.foldl (absorb 64 sha256Compress) (sha256H0, [])).1,
        (chunks.flatten.foldl (absorb 64 sha256Compress) (sha256H0, [])).2,
        UInt64.ofNat (8 * chunks.flatten.length)⟩ := by
  induction chunks using List.reverseRecOn with
  | nil => rfl
  | append_singleton chunks data ih =>
      have hcount : UInt64.ofNat (8 * chunks.flatten.length) + UInt64.ofNat data.length * 8 =
          UInt64.ofNat (8 * (chunks.flatten ++ data).length) := by
        rw [List.length_append, Nat.mul_add, UInt64.ofNat_add, Nat.mul_comm 8 data.length,
          UInt64.ofNat_mul data.length]
        rfl
      rw [List.foldl_append, ih, List.foldl_cons, List.foldl_nil, sha256Update, hcount,
        foldl_sha256Absorb, List.flatten_concat, List.foldl_append]

/-- What `sha256_final` appends to the bytes in the block buffer. -/
def finalPadding (buf : List UInt8) (bitCount : UInt64) : List UInt8 :=
  0x80 :: List.replicate ((55 + 64 - buf.length % 64) % 64) 0 ++ writeBe64 bitCount

/-- The output of `sha256_final`. -/
def Sha256State.bytes (s : Sha256State) : List UInt8 :=
  writeBe32 s.a ++ writeBe32 s.b ++ writeBe32 s.c ++ writeBe32 s.d ++
    writeBe32 s.e ++ writeBe32 s.f ++ writeBe32 s.g ++ writeBe32 s.h

/-- The one block, or the two, that `sha256_final` compresses are the blocks of the
padded rest. -/
theorem sha256Final_eq (st : Sha256State) {buf : List UInt8} (hbuf : buf.length < 64)
    (bitCount : UInt64) :
    (buf ++ finalPadding buf bitCount).length =
        64 * ((buf ++ finalPadding buf bitCount).length / 64) ∧
      sha256Final ⟨st, buf, bitCount⟩ =
        (blockFold 64 sha256Compress ((buf ++ finalPadding buf bitCount).length / 64) st
          (buf ++ finalPadding buf bitCount)).bytes := by
  have hlen : (buf ++ finalPadding buf bitCount).length =
      buf.length + (1 + (55 + 64 - buf.length % 64) % 64 + 8) := by
    simp only [finalPadding, writeBe64, List.length_append, List.length_cons,
      List.length_replicate, List.length_nil]
    omega
  by_cases hlong : buf.length ≥ 56
  · have htwo : (buf ++ finalPadding buf bitCount).length = 64 * 2 := by omega
    refine ⟨by omega, ?_⟩
    have hzeros : (55 + 64 - buf.length % 64) % 64 = (63 - buf.length) + 56 := by omega
    have hsplit : buf ++ finalPadding buf bitCount =
        (buf ++ 0x80 :: List.replicate (63 - buf.length) 0) ++
          (List.replicate 56 0 ++ writeBe64 bitCount) := by
      rw [finalPadding, hzeros, ← List.replicate_append_replicate]
      simp only [List.append_assoc, List.cons_append]
    have hfirst : (buf ++ 0x80 :: List.replicate (63 - buf.length) 0).length = 64 := by
      rw [List.length_append, List.length_cons, List.length_replicate]
      omega
    rw [htwo, Nat.mul_div_cancel_left _ (by decide), hsplit, blockFold, blockFold_one,
      List.take_left' hfirst, List.drop_left' hfirst]
    · simp only [sha256Final, if_pos hlong]
      rfl
    · rw [List.drop_left' hfirst]
      rfl
  · have hone : (buf ++ finalPadding buf bitCount).length = 64 := by omega
    refine ⟨by omega, ?_⟩
    have hzeros : (55 + 64 - buf.length % 64) % 64 = 55 - buf.length := by omega
    have htake : (buf ++ 0x80 :: List.replicate (63 - buf.length) 0).take 56 ++
        writeBe64 bitCount = buf ++ finalPadding buf bitCount := by
      have hrest : 63 - buf.length = (55 - buf.length) + 8 := by omega
      rw [finalPadding, hzeros, hrest, ← List.replicate_append_replicate, ← List.cons_append,
        ← List.append_assoc, List.take_left' (by
          rw [List.length_append, List.length_cons, List.length_replicate]
          omega), List.append_assoc]
    rw [hone, Nat.div_self (by decide), blockFold_one _ hone]
    simp only [sha256Final, if_neg hlong, htake]
    rfl

theorem byteBits_padded (bytes : List UInt8) :
    byteBits (bytes ++ finalPadding bytes (UInt64.ofNat (8 * bytes.length))) =
      Sha256.pad (byteBits bytes) := by
  have hcount : (UInt64.ofNat (8 * bytes.length)).toNat = 8 * bytes.length % 2 ^ 64 := rfl
  rw [Sha256.pad_byteBits, finalPadding, ← List.append_assoc, byteBits_append,
    byteBits_writeBe64, hcount, natBits_mod (Nat.le_refl 64)]

theorem value_blockFold (n : ℕ) (st : Sha256State) {bytes : List UInt8}
    (hlen : bytes.length = 64 * n) :
    (blockFold 64 sha256Compress n st bytes).value =
      blockFold 512 Sha256.compress n st.value (byteBits bytes) :=
  map_blockFold Sha256State.value byteBits (fun l => byteBits_take 64 l)
    (fun l => byteBits_drop 64 l) (fun s _ hl => value_sha256Compress s hl) n st hlen.ge

theorem bytes_eq_of_value {s : Sha256State} {v : Sha256.HashValue} (h : s.value = v) :
    s.bytes = Sha256.wordBytes v.a ++ Sha256.wordBytes v.b ++ Sha256.wordBytes v.c ++
      Sha256.wordBytes v.d ++ Sha256.wordBytes v.e ++ Sha256.wordBytes v.f ++
      Sha256.wordBytes v.g ++ Sha256.wordBytes v.h := by
  subst h
  simp only [Sha256State.bytes, writeBe32_eq, Sha256State.value]

theorem sha256Final_foldl (chunks : List (List UInt8)) :
    sha256Final (chunks.foldl sha256Update sha256Init) = Sha256.digest chunks.flatten := by
  have hB : 0 < 64 := by decide
  rw [foldl_sha256Update, foldl_absorb hB]
  generalize chunks.flatten = bytes
  have hdiv := Nat.div_add_mod bytes.length 64
  let q := bytes.length / 64
  let buf := bytes.drop (64 * q)
  let bitCount := UInt64.ofNat (8 * bytes.length)
  let padded := bytes ++ finalPadding bytes bitCount
  have hbuf : buf.length = bytes.length % 64 := by
    rw [List.length_drop]
    omega
  have hlt : buf.length < 64 := by omega
  have hpadding : finalPadding bytes bitCount = finalPadding buf bitCount := by
    rw [finalPadding, finalPadding, hbuf, Nat.mod_mod]
  have hrest : padded.drop (64 * q) = buf ++ finalPadding buf bitCount := by
    rw [← hpadding]
    exact List.drop_append_of_le_length (by omega)
  obtain ⟨hlen, hfinal⟩ := sha256Final_eq (blockFold 64 sha256Compress q sha256H0 bytes) hlt
    bitCount
  generalize (buf ++ finalPadding buf bitCount).length / 64 = n at hlen hfinal
  have hfold : blockFold 64 sha256Compress n (blockFold 64 sha256Compress q sha256H0 bytes)
      (buf ++ finalPadding buf bitCount) =
        blockFold 64 sha256Compress (q + n) sha256H0 padded := by
    rw [blockFold_add, hrest, blockFold_append q _ (by omega)]
  have hpadded : padded.length = 64 * (q + n) := by
    have hdrop := congrArg List.length hrest
    rw [List.length_drop, hlen] at hdrop
    have hge : bytes.length ≤ padded.length := by
      rw [List.length_append]
      omega
    omega
  have hbits : byteBits padded = Sha256.pad (byteBits bytes) := byteBits_padded bytes
  have hblocks : (Sha256.pad (byteBits bytes)).length / 512 = q + n := by
    rw [← hbits, length_byteBits, hpadded]
    omega
  rw [hfinal, hfold]
  refine bytes_eq_of_value ?_
  rw [value_blockFold _ _ hpadded, sha256H0_eq, hbits, Sha256.hash, hblocks]

end Stream

section Hmac

theorem sha256_eq_digest (data : List UInt8) : sha256 data = Sha256.digest data := by
  have hone := sha256Final_foldl [data]
  rwa [List.flatten_singleton] at hone

theorem sha256Update_two (data data' : List UInt8) :
    sha256Final (sha256Update (sha256Update sha256Init data) data') =
      Sha256.digest (data ++ data') := by
  have htwo := sha256Final_foldl [data, data']
  rwa [List.flatten_cons, List.flatten_singleton] at htwo

theorem hmacKeyPad_eq (key : List UInt8) : hmacKeyPad key = hmacKey Sha256.digest 64 key := by
  rw [hmacKeyPad, hmacKey, sha256_eq_digest]

theorem length_hmacKeyPad (key : List UInt8) : (hmacKeyPad key).length = 64 := by
  simp only [hmacKeyPad, List.length_append, List.length_replicate]
  split_ifs
  · rw [sha256, length_sha256Final, smHmacSize]
  · omega

theorem map_xor_eq (k : List UInt8) (b : UInt8) :
    k.map (· ^^^ b) = List.zipWith (· ^^^ ·) k (List.replicate k.length b) := by
  induction k with
  | nil => rfl
  | cons a k ih =>
      rw [List.map_cons, ih, List.length_cons, List.replicate_succ, List.zipWith_cons_cons]

theorem map_xor_map_xor (k : List UInt8) (b b' : UInt8) :
    (k.map (· ^^^ b)).map (· ^^^ (b ^^^ b')) = k.map (· ^^^ b') := by
  rw [List.map_map]
  refine List.map_congr_left fun a _ => ?_
  rw [Function.comp_apply, UInt8.xor_assoc, ← UInt8.xor_assoc b, UInt8.xor_self,
    UInt8.zero_xor]

theorem smHmacSha256_eq_hmac (key data : List UInt8) :
    smHmacSha256 key data = hmac Sha256.digest 64 key data := by
  have hipad := map_xor_eq (hmacKeyPad key) 0x36
  have hopad := map_xor_eq (hmacKeyPad key) 0x5c
  rw [length_hmacKeyPad] at hipad hopad
  simp only [hmac, ← hmacKeyPad_eq]
  rw [← hipad, ← hopad, ← map_xor_map_xor _ 0x36, ← sha256Update_two, ← sha256Update_two]
  rfl

/-- The hash of a byte string in any split, the keyed hash and its verification. -/
theorem hmacSha256_correct :
    (∀ chunks : List (List UInt8),
      sha256Final (chunks.foldl sha256Update sha256Init) = Sha256.digest chunks.flatten) ∧
    (∀ key data : List UInt8, smHmacSha256 key data = hmac Sha256.digest 64 key data) ∧
    ∀ (key data : List UInt8) (expected : Vector UInt8 smHmacSize),
      smHmacVerify key data expected.toList = 0 ↔
        expected.toList = hmac Sha256.digest 64 key data := by
  refine ⟨sha256Final_foldl, smHmacSha256_eq_hmac, fun key data expected => ?_⟩
  rw [smHmacVerify_eq_zero_iff expected.length_toList, smHmacSha256_eq_hmac]

end Hmac

end ServiceManager

end Shinigami
