import ShadeTree.Bootnode.Onion
import ShadeTree.Lib.ShiftRegister

/-!
# The codec of onion addresses (`base32Encode` to `pubkeyToOnion` in `lib/directory.mjs`)

Encoder and decoder shift through a number that JavaScript cuts to 32 bits at each step.  What an address is, is said
of numbers: its digits of five bits are the bytes, and bits of zero behind them if five does not divide their count.
-/

namespace ShadeTree.Bootnode

open ShadeTree.Lib

def B32 : List Char := "abcdefghijklmnopqrstuvwxyz234567".toList

def b32Char (idx : ℕ) : Char := B32.getD idx 'a'

def base32Encode (buf : List ℕ) : String :=
  let s := buf.foldl (fun s byte => (s.load 8 byte).drain 5) (ShiftRegister.empty : ShiftRegister 32)
  String.ofList (s.out.map b32Char ++
    if 0 < s.bits then [b32Char ((s.value <<< (5 - s.bits)) &&& 31#32).toNat] else [])

/-- `base32Decode` on 32 bits. -/
def base32DecodeBits (s : List Char) : Option (List ℕ) :=
  (s.mapM b32Index).map fun digits => (digits.foldl
    (fun s idx => if 8 ≤ (s.load 5 idx).bits then (s.load 5 idx).write 8 else s.load 5 idx)
    (ShiftRegister.empty : ShiftRegister 32)).out

/-- `pubkeyToOnion(pubHex)`; `none` if it throws. -/
def pubkeyToOnion (checksum : List ℕ → List ℕ) (pubkey : List ℕ) : Option String :=
  if pubkey.length ≠ 32 then none else some (base32Encode (pubkey ++ (checksum pubkey ++ [3])) ++ ".onion")

/-! ### Base32 -/

/-- The text is the digits of the bytes, and bits of zero fill the last one. -/
def IsBase32 (bytes : List ℕ) (text : List Char) : Prop :=
  ∃ digits pad, text = digits.map b32Char ∧ (∀ d ∈ digits, d < 2 ^ 5) ∧ pad < 5 ∧
    5 * digits.length = 8 * bytes.length + pad ∧
    Regroup.numeral (2 ^ 5) digits = Regroup.numeral (2 ^ 8) bytes * 2 ^ pad

lemma b32Index_b32Char {d : ℕ} (h : d < 2 ^ 5) : b32Index (b32Char d) = some d := by
  have hall : ∀ d < 2 ^ 5, b32Index (b32Char d) = some d := by decide +kernel
  exact hall d h

lemma b32Char_of_index {c : Char} {d : ℕ} (h : b32Index c = some d) : c = b32Char d :=
  b32Index_inj h (b32Index_b32Char (b32Index_lt h))

lemma mapM_b32Char {digits : List ℕ} (h : ∀ d ∈ digits, d < 2 ^ 5) : (digits.map b32Char).mapM b32Index = some digits := by
  induction digits with
  | nil => rfl
  | cons d digits ih =>
    obtain ⟨hd, hrest⟩ := List.forall_mem_cons.mp h
    rw [List.map_cons, List.mapM_cons, b32Index_b32Char hd, ih hrest]
    rfl

/-- The decoder on 32 bits loses none. -/
theorem base32DecodeBits_eq (s : List Char) : base32DecodeBits s = base32Decode s := by
  unfold base32DecodeBits base32Decode
  cases h : s.mapM b32Index with
  | none => rfl
  | some digits =>
    have hd := (b32_digits (mapM_b32 h)).2
    exact congrArg some (ShiftRegister.tracks_regroup (by decide) (by decide) (by decide) hd).out

/-- What is left of less than five bits is written above zeros. -/
lemma flush_eq {v n : ℕ} (hn : n < 5) :
    ((BitVec.ofNat 32 v <<< (5 - n)) &&& 31#32).toNat = v % 2 ^ n * 2 ^ (5 - n) := by
  have hmask : 31#32 = BitVec.ofNat 32 (2 ^ 5 - 1) := rfl
  refine Nat.eq_of_testBit_eq fun i => ?_
  rw [BitVec.testBit_toNat, BitVec.getLsbD_and, BitVec.getLsbD_shiftLeft, hmask, ← Nat.shiftLeft_eq, Nat.testBit_shiftLeft,
    Nat.testBit_mod_two_pow]
  simp only [BitVec.getLsbD_ofNat, Nat.testBit_two_pow_sub_one]
  by_cases hlow : i < 5 - n
  · have hge : ¬ 5 ≤ i + n := by omega
    simp [hlow, hge]
  · by_cases hi : i < 5
    · have h32 : i < 32 := by omega
      have hsub : i - (5 - n) < 32 := by omega
      have hn' : i - (5 - n) < n := by omega
      have hge : 5 ≤ i + n := by omega
      simp [hlow, hi, h32, hsub, hn', hge]
    · have hn' : ¬ i - (5 - n) < n := by omega
      simp [hi, hn']

/-- **The encoder loses no bits**: its text is the digits of the bytes, however many they are. -/
theorem base32Encode_spec {buf : List ℕ} (h : ∀ byte ∈ buf, byte < 2 ^ 8) : IsBase32 buf (base32Encode buf).toList := by
  obtain ⟨hbits, hvalue, hout⟩ := ShiftRegister.tracks_spread (w := 32) (b := 5) (by decide) (by decide) h
  obtain ⟨hnum, hlen, hlt⟩ := Regroup.holds_spread (b := 5) h
  have hwait := Regroup.spread_waiting (a := 8) (b := 5) (by decide) buf
  unfold base32Encode
  rw [String.toList_ofList, hbits, hvalue, hout]
  generalize Regroup.spread 8 5 buf = s at *
  by_cases hpos : 0 < s.bits
  · refine ⟨s.out ++ [s.value % 2 ^ s.bits * 2 ^ (5 - s.bits)], 5 - s.bits, ?_, ?_, by omega, ?_, ?_⟩
    · rw [if_pos hpos, flush_eq hwait, List.map_append]
      rfl
    · intro d hd
      rcases List.mem_append.mp hd with hd | hd
      · exact hlt d hd
      · rw [List.mem_singleton.mp hd]
        have hmod : s.value % 2 ^ s.bits < 2 ^ s.bits := Nat.mod_lt _ (by positivity)
        calc s.value % 2 ^ s.bits * 2 ^ (5 - s.bits) < 2 ^ s.bits * 2 ^ (5 - s.bits) :=
              Nat.mul_lt_mul_of_pos_right hmod (by positivity)
          _ = 2 ^ 5 := by rw [← pow_add]; congr 1; omega
    · rw [List.length_append, List.length_singleton]
      omega
    · rw [Regroup.numeral_snoc, hnum]
      have hpow : 2 ^ 5 = 2 ^ s.bits * 2 ^ (5 - s.bits) := by rw [← pow_add]; congr 1; omega
      nth_rewrite 2 [hpow]
      ring
  · have hzero : s.bits = 0 := by omega
    refine ⟨s.out, 0, ?_, hlt, by decide, ?_, ?_⟩
    · rw [if_neg hpos, List.append_nil]
    · omega
    · rw [hnum, hzero]
      simp [Nat.mod_one]

lemma IsBase32.unique {bytes : List ℕ} {text text' : List Char} (h : IsBase32 bytes text) (h' : IsBase32 bytes text') :
    text = text' := by
  obtain ⟨digits, pad, rfl, hlt, hpad, hlen, hnum⟩ := h
  obtain ⟨digits', pad', rfl, hlt', hpad', hlen', hnum'⟩ := h'
  obtain rfl : pad = pad' := by omega
  rw [Regroup.numeral_inj (by decide) (by omega) hlt hlt' (hnum.trans hnum'.symm)]

/-- The decoder reads what was encoded, and drops the bits that fill the last digit. -/
lemma IsBase32.decode {bytes : List ℕ} {text : List Char} (h : IsBase32 bytes text) (hbytes : ∀ b ∈ bytes, b < 2 ^ 8) :
    base32Decode text = some bytes := by
  obtain ⟨digits, pad, rfl, hlt, hpad, hlen, hnum⟩ := h
  obtain ⟨hread, hwait, hlength, hout⟩ := Regroup.regroup_reads (a := 5) (b := 8) (by decide) (by decide) hlt
  rw [base32Decode, mapM_b32Char hlt]
  refine congrArg some ?_
  have hbits : (digits.foldl (Regroup.push 5 8) ⟨0, 0, []⟩).bits = pad := by omega
  refine Regroup.numeral_inj (by decide : 1 < 2 ^ 8) ?_ hout hbytes ?_
  · show (digits.foldl (Regroup.push 5 8) ⟨0, 0, []⟩).out.length = bytes.length
    omega
  · have hmod : (digits.foldl (Regroup.push 5 8) ⟨0, 0, []⟩).value % 2 ^ pad < 2 ^ pad := Nat.mod_lt _ (by positivity)
    rw [hnum, hbits] at hread
    have hdiv := congrArg (· / 2 ^ pad) hread
    rw [Nat.mul_div_cancel _ (by positivity), Nat.mul_comm, Nat.mul_add_div (by positivity), Nat.div_eq_of_lt hmod,
      Nat.add_zero] at hdiv
    exact hdiv.symm

lemma isBase32_of_decode {bytes : List ℕ} {text : List Char} (h : base32Decode text = some bytes)
    (heven : 8 ∣ 5 * text.length) : IsBase32 bytes text := by
  obtain ⟨digits, hdigits, rfl⟩ := Option.map_eq_some_iff.mp h
  have hmap := mapM_b32 hdigits
  obtain ⟨hlen, hlt⟩ := b32_digits hmap
  obtain ⟨hread, hwait, hlength, -⟩ := Regroup.regroup_reads (a := 5) (b := 8) (by decide) (by decide) hlt
  have hbits : (digits.foldl (Regroup.push 5 8) ⟨0, 0, []⟩).bits = 0 := by
    rw [hlen] at heven
    omega
  rw [hbits, pow_zero, Nat.mod_one] at hread
  refine ⟨digits, 0, ?_, hlt, by decide, ?_, hread⟩
  · have htext : text.map b32Index = (digits.map b32Char).map b32Index := by
      rw [hmap, List.map_map]
      exact (List.map_congr_left fun d hd => b32Index_b32Char (hlt d hd)).symm
    exact map_b32_inj hmap (htext ▸ hmap)
  · unfold Regroup.regroup
    omega

/-! ### Addresses -/

/-- The bytes of a key. -/
structure IsKey (key : List ℕ) : Prop where
  length : key.length = 32
  lt : ∀ b ∈ key, b < 2 ^ 8

/-- The first two bytes of a hash. -/
structure IsChecksum (checksum : List ℕ → List ℕ) : Prop where
  length : ∀ key, (checksum key).length = 2
  lt : ∀ key, ∀ b ∈ checksum key, b < 2 ^ 8

/-- The 56 characters are a key, its checksum and the version in base32. -/
def IsV3 (checksum : List ℕ → List ℕ) (key : List ℕ) (addr : List Char) : Prop :=
  addr.length = 56 ∧ key.length = 32 ∧ base32Decode addr = some (key ++ (checksum key ++ [3]))

variable {checksum : List ℕ → List ℕ}

lemma regroup_lt {addr : List Char} {bytes : List ℕ} (h : base32Decode addr = some bytes) : ∀ b ∈ bytes, b < 2 ^ 8 := by
  obtain ⟨digits, hdigits, rfl⟩ := Option.map_eq_some_iff.mp h
  exact (Regroup.regroup_reads (a := 5) (b := 8) (by decide) (by decide) (b32_digits (mapM_b32 hdigits)).2).lt

lemma IsV3.isKey {key : List ℕ} {addr : List Char} (h : IsV3 checksum key addr) : IsKey key :=
  ⟨h.2.1, fun b hb => regroup_lt h.2.2 b (List.mem_append_left _ hb)⟩

lemma checks_of_parts (hsum : IsChecksum checksum) {key : List ℕ} (hkey : key.length = 32) :
    (key ++ (checksum key ++ [3])).length = 35 ∧ (key ++ (checksum key ++ [3])).getD 34 0 = 3 ∧
      (key ++ (checksum key ++ [3])).take 32 = key ∧
      ((key ++ (checksum key ++ [3])).drop 32).take 2 = checksum key := by
  have hsum2 := hsum.length key
  refine ⟨?_, ?_, List.take_left' hkey, ?_⟩
  · simp only [List.length_append, List.length_singleton]
    omega
  · rw [List.getD_append_right _ _ _ _ (by omega), List.getD_append_right _ _ _ _ (by omega)]
    have hzero : 34 - key.length - (checksum key).length = 0 := by omega
    rw [hzero]
    rfl
  · rw [List.drop_left' hkey, List.take_left' hsum2]

/-- What the decoder accepts, after it has dropped the suffix and lowered the case. -/
theorem onionToPubkey_iff (hsum : IsChecksum checksum) {onion : String} {key : List ℕ} :
    onionToPubkey checksum onion = .ok key ↔ IsV3 checksum key ((dropOnion onion.toList).flatMap toLowerCase) := by
  constructor
  · exact onionToPubkey_ok
  · rintro ⟨hlen, hkey, hdecode⟩
    obtain ⟨h35, hversion, htake, hcheck⟩ := checks_of_parts hsum hkey
    unfold onionToPubkey
    dsimp only
    rw [if_neg (not_not.mpr hlen), hdecode]
    dsimp only
    rw [if_neg (not_not.mpr h35), if_neg (not_not.mpr hversion), htake, if_neg (not_not.mpr hcheck)]

/-- The bytes that an address holds. -/
lemma bytes_lt (hsum : IsChecksum checksum) {key : List ℕ} (hkey : IsKey key) :
    ∀ b ∈ key ++ (checksum key ++ [3]), b < 2 ^ 8 := by
  intro b hb
  rcases List.mem_append.mp hb with hb | hb
  · exact hkey.lt b hb
  · rcases List.mem_append.mp hb with hb | hb
    · exact hsum.lt key b hb
    · rw [List.mem_singleton.mp hb]
      decide

lemma base32_length {bytes : List ℕ} {text : List Char} (h : IsBase32 bytes text) (hlen : bytes.length = 35) :
    text.length = 56 := by
  obtain ⟨digits, pad, rfl, -, hpad, hlength, -⟩ := h
  rw [List.length_map]
  omega

lemma isV3_base32Encode (hsum : IsChecksum checksum) {key : List ℕ} (hkey : IsKey key) :
    IsV3 checksum key (base32Encode (key ++ (checksum key ++ [3]))).toList := by
  have hbytes := bytes_lt hsum hkey
  have hspec := base32Encode_spec hbytes
  have h35 : (key ++ (checksum key ++ [3])).length = 35 := by
    have hsum2 := hsum.length key
    have hlen := hkey.length
    simp only [List.length_append, List.length_singleton]
    omega
  exact ⟨base32_length hspec h35, hkey.length, hspec.decode hbytes⟩

/-- One text for each key. -/
lemma IsV3.eq_base32Encode (hsum : IsChecksum checksum) {key : List ℕ} {addr : List Char} (h : IsV3 checksum key addr) :
    addr = (base32Encode (key ++ (checksum key ++ [3]))).toList := by
  have heven : 8 ∣ 5 * addr.length := by
    rw [h.1]
    decide
  exact (isBase32_of_decode h.2.2 heven).unique (base32Encode_spec (bytes_lt hsum h.isKey))

lemma isV3_chars {key : List ℕ} {addr : List Char} (h : IsV3 checksum key addr) : ∀ c ∈ addr, (b32Index c).isSome := by
  obtain ⟨digits, hdigits, -⟩ := Option.map_eq_some_iff.mp h.2.2
  intro c hc
  have hmem : b32Index c ∈ addr.map b32Index := List.mem_map_of_mem hc
  rw [mapM_b32 hdigits] at hmem
  obtain ⟨d, -, hd⟩ := List.mem_map.mp hmem
  rw [← hd]
  rfl

lemma flatMap_toLowerCase_b32 {addr : List Char} (h : ∀ c ∈ addr, (b32Index c).isSome) :
    addr.flatMap toLowerCase = addr := by
  rw [List.flatMap_congr fun c hc => toLowerCase_b32 (h c hc)]
  simp

lemma dropOnion_append (addr : List Char) : dropOnion (addr ++ ".onion".toList) = addr := by
  unfold dropOnion
  rw [if_pos (List.suffix_append _ _)]
  simp

/-- Every key is read back from its address. -/
theorem onionToPubkey_pubkeyToOnion (hsum : IsChecksum checksum) {key : List ℕ} (hkey : IsKey key) :
    ∃ onion, pubkeyToOnion checksum key = some onion ∧ onionToPubkey checksum onion = .ok key := by
  have hv3 := isV3_base32Encode hsum hkey
  refine ⟨_, if_neg (not_not.mpr hkey.length), (onionToPubkey_iff hsum).mpr ?_⟩
  rw [String.toList_append, dropOnion_append, flatMap_toLowerCase_b32 (isV3_chars hv3)]
  exact hv3

/-- The address with its case lowered and one suffix. -/
def canonicalOnion (onion : String) : String :=
  String.ofList ((dropOnion onion.toList).flatMap toLowerCase ++ ".onion".toList)

/-- Every address that is accepted is the canonical one of its key but for its case and its suffix. -/
theorem pubkeyToOnion_onionToPubkey (hsum : IsChecksum checksum) {onion : String} {key : List ℕ}
    (h : onionToPubkey checksum onion = .ok key) : pubkeyToOnion checksum key = some (canonicalOnion onion) := by
  have hv3 := (onionToPubkey_iff hsum).mp h
  unfold pubkeyToOnion canonicalOnion
  rw [if_neg (not_not.mpr hv3.2.1), hv3.eq_base32Encode hsum]
  exact congrArg some (String.toList_inj.mp (String.toList_append.trans String.toList_ofList.symm))

end ShadeTree.Bootnode
