import ShadeTree.Bootnode.OnionCodec
import ShadeTree.Lib.Text
import ShadeTree.Proto.Directory

/-!
# The codec of onion addresses on the Rust side (`onion_to_pubkey`, `pubkey_to_onion` in `shade-tree-proto/src/lib.rs`)

Here the case is lowered before the suffix is dropped, so an address is also accepted with its suffix in capitals.  The
encoding of `data_encoding` is a parameter that does what RFC 4648 says.
-/

namespace ShadeTree.Proto

open ShadeTree.Lib Bootnode

/-- What `base32()` gives: the alphabet of 32 symbols without padding.  A text is decoded exactly if it is what some
bytes are encoded to. -/
structure Base32 where
  encode : List ℕ → List Char
  decode : List Char → Option (List ℕ)
  encode_spec : ∀ bytes, (∀ b ∈ bytes, b < 2 ^ 8) → IsBase32 bytes (encode bytes)
  decode_spec : ∀ text bytes, decode text = some bytes ↔ (∀ b ∈ bytes, b < 2 ^ 8) ∧ text = encode bytes

/-- The encoding of RFC 4648, computed as the reference does. -/
def rfc4648 : Base32 where
  encode bytes := (base32Encode bytes).toList
  decode text := (base32Decode text).filter fun bytes => (base32Encode bytes).toList = text
  encode_spec bytes h := base32Encode_spec h
  decode_spec text bytes := by
    rw [Option.filter_eq_some_iff]
    constructor
    · rintro ⟨h, htext⟩
      exact ⟨regroup_lt h, (of_decide_eq_true htext).symm⟩
    · rintro ⟨h, rfl⟩
      exact ⟨(base32Encode_spec h).decode h, decide_eq_true rfl⟩

section Codec

variable (E : Base32) (S : Schemes)

/-- `onion_to_pubkey` with a decoder. -/
def onionToPubkeyWith (decode : List Char → Option (List ℕ)) (onion : String) : Except String (List ℕ) :=
  let lower := (S.toLowercase onion).toList
  let addr := if ".onion".toList.isSuffixOf lower then lower.take (lower.length - 6) else lower
  if byteLen addr ≠ 56 then .error "not a v3 onion (expected 56 chars)"
  else
    match decode addr with
    | none => .error "bad base32 char in onion"
    | some decoded =>
      if decoded.length ≠ 35 then .error "v3 onion decodes to 35 bytes"
      else if decoded.getD 34 0 ≠ 3 then .error "not onion version 3"
      else if (decoded.drop 32).take 2 ≠ S.onionChecksum (decoded.take 32) then .error "onion checksum mismatch"
      else .ok (decoded.take 32)

lemma onionToPubkeyWith_base32Decode (onion : String) : onionToPubkeyWith S base32Decode onion = onionToPubkey S onion :=
  rfl

/-- `pubkey_to_onion`. -/
def pubkeyToOnion (pubkey : List ℕ) : String :=
  String.ofList (E.encode (pubkey ++ (S.onionChecksum pubkey ++ [3])) ++ ".onion".toList)

end Codec

/-! ### Lowering the case -/

/-- A character that a decoder of ASCII can read. -/
def ascii (c : Char) : Option Char := if c.toNat < 128 then some c else none

/-- Texts that differ at most in characters that are not ASCII. -/
def SameAscii (s t : List Char) : Prop := s.map ascii = t.map ascii

lemma eq_of_ascii {c d : Char} (h : ascii c = some d) : c = d := by
  unfold ascii at h
  split at h
  · exact Option.some.inj h
  · cases h

lemma eq_of_map_ascii {s t : List Char} (h : s.map ascii = t.map some) : s = t := by
  induction t generalizing s with
  | nil => exact List.map_eq_nil_iff.mp h
  | cons d t ih =>
    obtain ⟨c, s, rfl, hc, hs⟩ := List.map_eq_cons_iff.mp h
    rw [eq_of_ascii hc, ih hs]

lemma map_ascii {s : List Char} (h : ∀ c ∈ s, c.toNat < 128) : s.map ascii = s.map some :=
  List.map_congr_left fun c hc => if_pos (h c hc)

lemma SameAscii.symm {s t : List Char} (h : SameAscii s t) : SameAscii t s := Eq.symm h

lemma SameAscii.eq {s t : List Char} (h : SameAscii s t) (ht : ∀ c ∈ t, c.toNat < 128) : s = t :=
  eq_of_map_ascii (Eq.trans h (map_ascii ht))

lemma onion_ascii : ∀ c ∈ ".onion".toList, c.toNat < 128 := Text.forall_of_all (by decide)

/-- The suffix is dropped on both sides or on none. -/
lemma SameAscii.dropOnion {s t : List Char} (h : SameAscii s t) : SameAscii (dropOnion s) (dropOnion t) := by
  have hsuffix : ∀ {s t : List Char}, SameAscii s t → ".onion".toList <:+ s → ".onion".toList <:+ t := by
    rintro s t hst ⟨init, rfl⟩
    unfold SameAscii at hst
    rw [List.map_append, map_ascii onion_ascii] at hst
    obtain ⟨init', last, rfl, -, hlast⟩ := List.map_eq_append_iff.mp hst.symm
    rw [eq_of_map_ascii hlast]
    exact List.suffix_append _ _
  have hlen : s.length = t.length := by simpa using congrArg List.length h
  unfold Bootnode.dropOnion
  by_cases hs : ".onion".toList <:+ s
  · rw [if_pos hs, if_pos (hsuffix h hs), hlen]
    unfold SameAscii at h ⊢
    rw [List.map_take, List.map_take, h]
  · rw [if_neg hs, if_neg fun ht => hs (hsuffix h.symm ht)]
    exact h

/-! ### What is accepted -/

lemma byteLen_ascii {s : List Char} (h : ∀ c ∈ s, c.toNat < 128) : byteLen s = s.length := by
  induction s with
  | nil => rfl
  | cons c s ih =>
    obtain ⟨hc, hs⟩ := List.forall_mem_cons.mp h
    have hsize : c.utf8Size = 1 := Char.utf8Size_eq_one_iff.mpr (by
      have hval : c.val.toNat ≤ 127 := by
        have heq : c.toNat = c.val.toNat := rfl
        omega
      exact UInt32.le_iff_toNat_le.mpr hval)
    have ih := ih hs
    unfold byteLen at ih ⊢
    rw [List.map_cons, List.sum_cons, ih, hsize, List.length_cons, Nat.add_comm]

lemma b32_ascii {c : Char} (h : (b32Index c).isSome) : c.toNat < 128 := by
  obtain ⟨i, hi⟩ := Option.isSome_iff_exists.mp h
  have hall : ∀ d < 2 ^ 5, (b32Char d).toNat < 128 := by decide
  rw [b32Char_of_index hi]
  exact hall i (b32Index_lt hi)

lemma isV3_ascii {checksum : List ℕ → List ℕ} {key : List ℕ} {addr : List Char} (h : IsV3 checksum key addr) :
    ∀ c ∈ addr, c.toNat < 128 := fun c hc => b32_ascii (isV3_chars h c hc)

section Accepted

variable {E : Base32} {S : Schemes} {checksum : List ℕ → List ℕ}

/-- The encoding of 35 bytes is that of the reference. -/
lemma encode_eq {bytes : List ℕ} (h : ∀ b ∈ bytes, b < 2 ^ 8) : E.encode bytes = (base32Encode bytes).toList :=
  (E.encode_spec bytes h).unique (base32Encode_spec h)

/-- On the text of 35 bytes the two decoders agree. -/
lemma decode_iff {addr : List Char} {bytes : List ℕ} (hlen : addr.length = 56) :
    E.decode addr = some bytes ↔ base32Decode addr = some bytes := by
  rw [E.decode_spec]
  constructor
  · rintro ⟨hbytes, rfl⟩
    exact (E.encode_spec bytes hbytes).decode hbytes
  · intro h
    have hbytes := regroup_lt h
    have heven : 8 ∣ 5 * addr.length := by
      rw [hlen]
      decide
    exact ⟨hbytes, (isBase32_of_decode h heven).unique (E.encode_spec bytes hbytes)⟩

lemma decode_ascii {addr : List Char} {bytes : List ℕ} (h : E.decode addr = some bytes) : ∀ c ∈ addr, c.toNat < 128 := by
  obtain ⟨hbytes, rfl⟩ := (E.decode_spec addr _).mp h
  obtain ⟨digits, pad, htext, hlt, -⟩ := E.encode_spec bytes hbytes
  intro c hc
  rw [htext] at hc
  obtain ⟨d, hd, rfl⟩ := List.mem_map.mp hc
  exact b32_ascii (by rw [b32Index_b32Char (hlt d hd)]; rfl)

lemma base32Decode_ascii {addr : List Char} {bytes : List ℕ} (h : base32Decode addr = some bytes) :
    ∀ c ∈ addr, c.toNat < 128 := by
  obtain ⟨digits, hdigits, -⟩ := Option.map_eq_some_iff.mp h
  intro c hc
  have hmem : b32Index c ∈ digits.map some := mapM_b32 hdigits ▸ List.mem_map_of_mem hc
  obtain ⟨d, -, hd⟩ := List.mem_map.mp hmem
  exact b32_ascii (hd ▸ rfl)

/-- What `onion_to_pubkey` accepts, after it has lowered the case and dropped the suffix. -/
theorem onionToPubkeyWith_iff {decode : List Char → Option (List ℕ)}
    (hascii : ∀ addr bytes, decode addr = some bytes → ∀ c ∈ addr, c.toNat < 128)
    (hdec : ∀ addr bytes, addr.length = 56 → (decode addr = some bytes ↔ base32Decode addr = some bytes))
    (hsum : IsChecksum checksum) (hS : S.onionChecksum = checksum) {onion : String}
    (hlower : SameAscii (S.toLowercase onion).toList (onion.toList.flatMap toLowerCase)) {key : List ℕ} :
    onionToPubkeyWith S decode onion = .ok key ↔ IsV3 checksum key (dropOnion (onion.toList.flatMap toLowerCase)) := by
  have hsame := hlower.dropOnion
  have haddr : (if ".onion".toList.isSuffixOf (S.toLowercase onion).toList then
      (S.toLowercase onion).toList.take ((S.toLowercase onion).toList.length - 6) else (S.toLowercase onion).toList) =
      dropOnion (S.toLowercase onion).toList := by
    unfold Bootnode.dropOnion
    simp only [List.isSuffixOf_iff_suffix]
  constructor
  · intro h
    unfold onionToPubkeyWith at h
    dsimp only at h
    rw [haddr] at h
    generalize dropOnion (S.toLowercase onion).toList = addr at h hsame
    split at h
    · cases h
    next hlen =>
    split at h
    · cases h
    next decoded hdecoded =>
    split at h
    · cases h
    next h35 =>
    split at h
    · cases h
    next hversion =>
    split at h
    · cases h
    next hcheck =>
    obtain rfl := Except.ok.inj h
    rw [not_not] at hlen h35 hversion hcheck
    rw [hS] at hcheck
    have hdecode : decode addr = some (decoded.take 32 ++ (checksum (decoded.take 32) ++ [3])) := by
      rw [← parts_of_checks h35 hversion hcheck]
      exact hdecoded
    have hsmall := hascii addr decoded hdecoded
    rw [byteLen_ascii hsmall] at hlen
    obtain rfl := hsame.symm.eq hsmall
    exact ⟨hlen, by rw [List.length_take, h35]; rfl, (hdec _ _ hlen).mp hdecode⟩
  · intro hv3
    have hsmall := isV3_ascii hv3
    have heq := hsame.eq hsmall
    obtain ⟨hlen, hkey, hdecode⟩ := hv3
    obtain ⟨h35, hversion, htake, hcheck⟩ := checks_of_parts hsum hkey
    unfold onionToPubkeyWith
    dsimp only
    rw [haddr, heq, byteLen_ascii hsmall, if_neg (not_not.mpr hlen), (hdec _ _ hlen).mpr hdecode]
    dsimp only
    rw [if_neg (not_not.mpr h35), if_neg (not_not.mpr hversion), htake, hS, if_neg (not_not.mpr hcheck)]

lemma onionToPubkeyWith_decode (hsum : IsChecksum checksum) (hS : S.onionChecksum = checksum) {onion : String}
    (hlower : SameAscii (S.toLowercase onion).toList (onion.toList.flatMap toLowerCase)) {key : List ℕ} :
    onionToPubkeyWith S E.decode onion = .ok key ↔
      IsV3 checksum key (dropOnion (onion.toList.flatMap toLowerCase)) :=
  onionToPubkeyWith_iff (fun _ _ h => decode_ascii h) (fun _ _ hlen => decode_iff hlen) hsum hS hlower

/-- With any such encoding the same is accepted. -/
theorem onionToPubkey_iff_with (hsum : IsChecksum checksum) (hS : S.onionChecksum = checksum) {onion : String}
    (hlower : SameAscii (S.toLowercase onion).toList (onion.toList.flatMap toLowerCase)) {key : List ℕ} :
    onionToPubkey S onion = .ok key ↔ onionToPubkeyWith S E.decode onion = .ok key := by
  rw [onionToPubkeyWith_decode hsum hS hlower, ← onionToPubkeyWith_base32Decode]
  exact onionToPubkeyWith_iff (fun _ _ h => base32Decode_ascii h) (fun _ _ _ => Iff.rfl) hsum hS hlower

/-- An address whose suffix is not in small letters. -/
def OtherSuffix (checksum : List ℕ → List ℕ) (onion : String) : Prop :=
  ¬ ".onion".toList <:+ onion.toList ∧
    ∃ key addr, IsV3 checksum key addr ∧ onion.toList.flatMap toLowerCase = addr ++ ".onion".toList

lemma suffix_lower {s : List Char} (h : ".onion".toList <:+ s) :
    dropOnion (s.flatMap toLowerCase) = (dropOnion s).flatMap toLowerCase := by
  obtain ⟨init, rfl⟩ := h
  have hsuffix : ".onion".toList.flatMap toLowerCase = ".onion".toList := by decide
  rw [List.flatMap_append, hsuffix, dropOnion_append, dropOnion_append]

/-- The two decoders read a text alike exactly if it is no address with another suffix. -/
theorem decoders_agree_iff (hsum : IsChecksum checksum) (hS : S.onionChecksum = checksum) {onion : String}
    (hlower : SameAscii (S.toLowercase onion).toList (onion.toList.flatMap toLowerCase)) :
    (∀ key, onionToPubkeyWith S E.decode onion = .ok key ↔ Bootnode.onionToPubkey checksum onion = .ok key) ↔
      ¬ OtherSuffix checksum onion := by
  simp only [onionToPubkeyWith_decode hsum hS hlower, Bootnode.onionToPubkey_iff hsum]
  by_cases hsuffix : ".onion".toList <:+ onion.toList
  · rw [suffix_lower hsuffix]
    exact ⟨fun _ h => h.1 hsuffix, fun _ _ => Iff.rfl⟩
  have hdrop : dropOnion onion.toList = onion.toList := if_neg hsuffix
  rw [hdrop]
  constructor
  · -- the reference reads the suffix too, and it has a character that is no digit
    rintro hall ⟨-, key, addr, hv3, hlow⟩
    have hkey := hall key
    rw [hlow, dropOnion_append] at hkey
    have hdot := isV3_chars (hkey.mp hv3) '.' (List.mem_append_right _ (by decide))
    exact absurd hdot (by decide)
  · intro hother key
    by_cases hlow : ".onion".toList <:+ onion.toList.flatMap toLowerCase
    · obtain ⟨addr, haddr⟩ := hlow
      rw [← haddr, dropOnion_append]
      constructor
      · exact fun hv3 => absurd ⟨hsuffix, key, addr, hv3, haddr.symm⟩ hother
      · intro hv3
        have hdot := isV3_chars hv3 '.' (List.mem_append_right _ (by decide))
        exact absurd hdot (by decide)
    · rw [Bootnode.dropOnion, if_neg hlow]

end Accepted

/-- **The codec of onion addresses.** Every key is read back from its address, every address that is accepted is that of
its key but for case and suffix, the registers of 32 bits lose no bits, and the two encoders agree; the decoders do
exactly on the texts that are no address with a suffix in other than small letters. -/
theorem onion_codec {checksum : List ℕ → List ℕ} (hsum : IsChecksum checksum) (E : Base32) {S : Schemes}
    (hS : S.onionChecksum = checksum)
    (hlower : ∀ onion, SameAscii (S.toLowercase onion).toList (onion.toList.flatMap toLowerCase)) :
    (∀ key, IsKey key → ∃ onion, Bootnode.pubkeyToOnion checksum key = some onion ∧
      Bootnode.onionToPubkey checksum onion = .ok key ∧ pubkeyToOnion E S key = onion) ∧
    (∀ onion key, Bootnode.onionToPubkey checksum onion = .ok key →
      Bootnode.pubkeyToOnion checksum key = some (canonicalOnion onion)) ∧
    (∀ buf, (∀ byte ∈ buf, byte < 2 ^ 8) → IsBase32 buf (base32Encode buf).toList) ∧
    (∀ s, base32DecodeBits s = base32Decode s) ∧
    ∀ onion, (∀ key, onionToPubkeyWith S E.decode onion = .ok key ↔ Bootnode.onionToPubkey checksum onion = .ok key) ↔
      ¬ OtherSuffix checksum onion := by
  refine ⟨fun key hkey => ?_, fun onion key h => pubkeyToOnion_onionToPubkey hsum h, fun buf h => base32Encode_spec h,
    base32DecodeBits_eq, fun onion => decoders_agree_iff hsum hS (hlower onion)⟩
  obtain ⟨onion, honion, hread⟩ := onionToPubkey_pubkeyToOnion hsum hkey
  refine ⟨onion, honion, hread, ?_⟩
  unfold Bootnode.pubkeyToOnion at honion
  rw [if_neg (not_not.mpr hkey.length)] at honion
  obtain rfl := Option.some.inj honion
  unfold pubkeyToOnion
  rw [hS, encode_eq (bytes_lt hsum hkey)]
  exact String.toList_inj.mp (String.toList_ofList.trans String.toList_append.symm)

/-! ### The key that is all zeros -/

/-- The checksum of the key that is all zeros, for every key. -/
def zeroChecksum (_ : List ℕ) : List ℕ := [205, 14]

lemma zeroChecksum_isChecksum : IsChecksum zeroChecksum := ⟨fun _ => rfl, fun key => (by decide : ∀ b ∈ [205, 14], b < 2 ^ 8)⟩

def zeroSchemes : Schemes where
  toLowercase s := String.ofList (s.toList.flatMap toLowerCase)
  onionChecksum := zeroChecksum
  ed25519Verify _ _ _ := false

lemma zeroSchemes_lower (onion : String) :
    SameAscii (zeroSchemes.toLowercase onion).toList (onion.toList.flatMap toLowerCase) :=
  congrArg (List.map ascii) String.toList_ofList

/-- The address of the key is read in small letters. -/
theorem onion_codec_zero :
    (∃ onion, Bootnode.pubkeyToOnion zeroChecksum (List.replicate 32 0) = some onion ∧
      Bootnode.onionToPubkey zeroChecksum onion = .ok (List.replicate 32 0) ∧
      pubkeyToOnion rfc4648 zeroSchemes (List.replicate 32 0) = onion) ∧
    ∀ key, onionToPubkeyWith zeroSchemes rfc4648.decode "aaaaaaaaaaaaaaaaaaaaaaaaaaaaaaaaaaaaaaaaaaaaaaaaaaam2dqd.onion" =
        .ok key ↔
      Bootnode.onionToPubkey zeroChecksum "aaaaaaaaaaaaaaaaaaaaaaaaaaaaaaaaaaaaaaaaaaaaaaaaaaam2dqd.onion" = .ok key := by
  obtain ⟨hkeys, -, -, -, hagree⟩ := onion_codec zeroChecksum_isChecksum rfc4648 rfl zeroSchemes_lower
  exact ⟨hkeys _ ⟨rfl, by decide⟩, (hagree _).mpr fun h => h.1 (by decide)⟩

/-- With its suffix in capitals only the Rust side reads it. -/
theorem capital_suffix_accepted :
    onionToPubkeyWith zeroSchemes rfc4648.decode "aaaaaaaaaaaaaaaaaaaaaaaaaaaaaaaaaaaaaaaaaaaaaaaaaaam2dqd.ONION" =
      .ok (List.replicate 32 0) ∧
    Bootnode.onionToPubkey zeroChecksum "aaaaaaaaaaaaaaaaaaaaaaaaaaaaaaaaaaaaaaaaaaaaaaaaaaam2dqd.ONION" =
      .error .notV3 := by
  refine ⟨(onionToPubkeyWith_decode zeroChecksum_isChecksum rfl (zeroSchemes_lower _)).mpr ?_, by decide⟩
  exact ⟨by decide +kernel, rfl, by decide +kernel⟩

end ShadeTree.Proto
