import Mathlib.Data.List.Basic
import Mathlib.Data.List.GetD
import ShadeTree.Lib.Regroup

/-!
# Onion addresses (`onionToPubkey` in `lib/directory.mjs`)

A v3 address is the base32 text of 35 bytes: the key, two bytes of a checksum over it, and the version.  The
decoder lowers the case and drops the suffix `.onion` first, so one key has many addresses it accepts.  Of
these `ONION_RE` leaves one.  The hash is a parameter; a key is the list of its bytes.
-/

namespace ShadeTree.Bootnode

open ShadeTree.Lib

/-- The place of a character in `B32`. -/
def b32Index (c : Char) : Option ℕ :=
  if 'a' ≤ c ∧ c ≤ 'z' then some (c.toNat - 'a'.toNat)
  else if '2' ≤ c ∧ c ≤ '7' then some (c.toNat - '2'.toNat + 26)
  else none

/-- `base32Decode`; `none` when a character is not in `B32`. -/
def base32Decode (s : List Char) : Option (List ℕ) := (s.mapM b32Index).map (Regroup.regroup 5 8)

/-- What `toLowerCase` makes of a character, as far as the decoder can tell: of the characters that are not
ASCII only the Kelvin sign becomes a letter it reads, and `İ` becomes two characters. -/
def toLowerCase (c : Char) : List Char :=
  if 'A' ≤ c ∧ c ≤ 'Z' then [Char.ofNat (c.toNat + 32)]
  else if c = '\u212a' then ['k']
  else if c = 'İ' then ['i', '\u0307']
  else [c]

/-- `replace(/\.onion$/, "")`. -/
def dropOnion (s : List Char) : List Char :=
  if ".onion".toList <:+ s then s.take (s.length - 6) else s

/-- Why an address is refused. -/
inductive BadOnion where
  | notV3 | badChar | badLength | badVersion | badChecksum
  deriving DecidableEq, Repr

/-- `onionToPubkey(onion)`; `checksum` is the first two bytes of the hash of the key. -/
def onionToPubkey (checksum : List ℕ → List ℕ) (onion : String) : Except BadOnion (List ℕ) :=
  let addr := (dropOnion onion.toList).flatMap toLowerCase
  if addr.length ≠ 56 then .error .notV3
  else
    match base32Decode addr with
    | none => .error .badChar
    | some decoded =>
      if decoded.length ≠ 35 then .error .badLength
      else if decoded.getD 34 0 ≠ 3 then .error .badVersion
      else if (decoded.drop 32).take 2 ≠ checksum (decoded.take 32) then .error .badChecksum
      else .ok (decoded.take 32)

/-- `ONION_RE`. -/
def ONION_RE (onion : String) : Prop :=
  ∃ addr : List Char, onion.toList = addr ++ ".onion".toList ∧ addr.length = 56 ∧
    ∀ c ∈ addr, (b32Index c).isSome

lemma b32Index_lt {c : Char} {i : ℕ} (h : b32Index c = some i) : i < 2 ^ 5 := by
  unfold b32Index at h
  split at h
  · next hc =>
    have hz : c.toNat ≤ 122 := hc.2
    have ha : 'a'.toNat = 97 := rfl
    obtain rfl := Option.some.inj h
    omega
  · split at h
    · next hc =>
      have h7 : c.toNat ≤ 55 := hc.2
      have h2 : '2'.toNat = 50 := rfl
      obtain rfl := Option.some.inj h
      omega
    · cases h

lemma b32Index_inj {c c' : Char} {i : ℕ} (h : b32Index c = some i) (h' : b32Index c' = some i) : c = c' := by
  have hval : ∀ c, b32Index c = some i → c.toNat = if i < 26 then i + 97 else i + 24 := by
    intro c h
    unfold b32Index at h
    split at h
    · next hc =>
      have hlo : 97 ≤ c.toNat := hc.1
      have hhi : c.toNat ≤ 122 := hc.2
      have ha : 'a'.toNat = 97 := rfl
      obtain rfl := Option.some.inj h
      rw [if_pos (by omega)]
      omega
    · split at h
      · next hc =>
        have hlo : 50 ≤ c.toNat := hc.1
        have h2 : '2'.toNat = 50 := rfl
        obtain rfl := Option.some.inj h
        rw [if_neg (by omega)]
        omega
      · cases h
  exact Char.toNat_inj.mp ((hval c h).trans (hval c' h').symm)

/-- The decoder leaves a character of `B32` as it is. -/
lemma toLowerCase_b32 {c : Char} (h : (b32Index c).isSome) : toLowerCase c = [c] := by
  have hrange : (97 ≤ c.toNat ∧ c.toNat ≤ 122) ∨ (50 ≤ c.toNat ∧ c.toNat ≤ 55) := by
    unfold b32Index at h
    split at h
    · next hc => exact .inl hc
    · split at h
      · next hc => exact .inr hc
      · cases h
  have hupper : ¬ ('A' ≤ c ∧ c ≤ 'Z') := by
    rintro ⟨hlo, hhi⟩
    have h65 : 65 ≤ c.toNat := hlo
    have h90 : c.toNat ≤ 90 := hhi
    omega
  have hkelvin : c ≠ '\u212a' := by
    rintro rfl
    exact absurd hrange (by decide)
  have hdotted : c ≠ 'İ' := by
    rintro rfl
    exact absurd hrange (by decide)
  unfold toLowerCase
  rw [if_neg hupper, if_neg hkelvin, if_neg hdotted]

lemma mapM_b32 {cs : List Char} {is : List ℕ} (h : cs.mapM b32Index = some is) :
    cs.map b32Index = is.map some := by
  induction cs generalizing is with
  | nil =>
    obtain rfl : [] = is := by simpa using h
    rfl
  | cons c cs ih =>
    rw [List.mapM_cons] at h
    obtain ⟨i, hi, h⟩ := Option.bind_eq_some_iff.mp h
    obtain ⟨tl, htl, h⟩ := Option.bind_eq_some_iff.mp h
    obtain rfl := Option.some.inj h
    rw [List.map_cons, List.map_cons, hi, ih htl]

lemma map_b32_inj {cs cs' : List Char} {is : List ℕ} (h : cs.map b32Index = is.map some)
    (h' : cs'.map b32Index = is.map some) : cs = cs' := by
  induction is generalizing cs cs' with
  | nil =>
    obtain rfl := List.map_eq_nil_iff.mp h
    exact (List.map_eq_nil_iff.mp h').symm
  | cons i is ih =>
    obtain ⟨c, tl, rfl, hc, htl⟩ := List.map_eq_cons_iff.mp h
    obtain ⟨c', tl', rfl, hc', htl'⟩ := List.map_eq_cons_iff.mp h'
    rw [b32Index_inj hc hc', ih htl htl']

lemma b32_digits {cs : List Char} {is : List ℕ} (h : cs.map b32Index = is.map some) :
    cs.length = is.length ∧ ∀ i ∈ is, i < 2 ^ 5 := by
  refine ⟨by simpa using congrArg List.length h, fun i hi => ?_⟩
  have hmem : some i ∈ cs.map b32Index := h ▸ List.mem_map_of_mem hi
  obtain ⟨c, -, hc⟩ := List.mem_map.mp hmem
  exact b32Index_lt hc

/-- The parts of 35 bytes that pass the checks. -/
lemma parts_of_checks {checksum : List ℕ → List ℕ} {decoded : List ℕ} (h35 : decoded.length = 35)
    (hversion : decoded.getD 34 0 = 3) (hsum : (decoded.drop 32).take 2 = checksum (decoded.take 32)) :
    decoded = decoded.take 32 ++ (checksum (decoded.take 32) ++ [3]) := by
  have hlast : decoded.drop 34 = [3] := by
    rw [List.drop_eq_getElem_cons (by omega), List.drop_eq_nil_of_le (by omega)]
    rw [List.getD_eq_getElem _ _ (by omega)] at hversion
    rw [hversion]
  calc decoded
      = decoded.take 32 ++ (decoded.drop 32).take 2 ++ (decoded.drop 32).drop 2 := by
        rw [List.append_assoc, List.take_append_drop, List.take_append_drop]
    _ = _ := by rw [List.drop_drop, hsum, hlast, List.append_assoc]

/-- The 35 bytes of an address that decodes to the key. -/
lemma onionToPubkey_ok {checksum : List ℕ → List ℕ} {onion : String} {key : List ℕ}
    (h : onionToPubkey checksum onion = .ok key) :
    ((dropOnion onion.toList).flatMap toLowerCase).length = 56 ∧ key.length = 32 ∧
      base32Decode ((dropOnion onion.toList).flatMap toLowerCase) = some (key ++ (checksum key ++ [3])) := by
  unfold onionToPubkey at h
  dsimp only at h
  split at h
  · cases h
  next hlen =>
  split at h
  · cases h
  next decoded hdecoded =>
  split at h
  · cases h
  next h35 =>
  split at h
  · cases h
  next hversion =>
  split at h
  · cases h
  next hsum =>
  obtain rfl := Except.ok.inj h
  rw [not_not] at hlen h35 hversion hsum
  refine ⟨hlen, by rw [List.length_take, h35]; rfl, ?_⟩
  rw [← parts_of_checks h35 hversion hsum]
  exact hdecoded

lemma onionToPubkey_bytes {checksum : List ℕ → List ℕ} {onion : String} {key : List ℕ} {addr : List Char}
    (h : onionToPubkey checksum onion = .ok key) (haddr : onion.toList = addr ++ ".onion".toList)
    (hb32 : ∀ c ∈ addr, (b32Index c).isSome) :
    addr.length = 56 ∧ ∃ is : List ℕ, addr.map b32Index = is.map some ∧
      Regroup.regroup 5 8 is = key ++ (checksum key ++ [3]) := by
  have hdrop : dropOnion onion.toList = addr := by
    unfold dropOnion
    rw [haddr, if_pos (List.suffix_append _ _)]
    simp
  have hlower : addr.flatMap toLowerCase = addr := by
    rw [List.flatMap_congr fun c hc => toLowerCase_b32 (hb32 c hc)]
    simp
  obtain ⟨hlen, -, hdecode⟩ := onionToPubkey_ok h
  rw [hdrop, hlower] at hlen hdecode
  obtain ⟨is, his, hbytes⟩ := Option.map_eq_some_iff.mp hdecode
  exact ⟨hlen, is, mapM_b32 his, hbytes⟩

/-- **One canonical address for each key.** -/
theorem onionToPubkey_inj {checksum : List ℕ → List ℕ} {s t : String} {key : List ℕ}
    (hs : onionToPubkey checksum s = .ok key) (ht : onionToPubkey checksum t = .ok key)
    (hcs : ONION_RE s) (hct : ONION_RE t) : s = t := by
  obtain ⟨addr, heq, -, hb32⟩ := hcs
  obtain ⟨addr', heq', -, hb32'⟩ := hct
  obtain ⟨hlen, is, his, hbytes⟩ := onionToPubkey_bytes hs heq hb32
  obtain ⟨hlen', is', his', hbytes'⟩ := onionToPubkey_bytes ht heq' hb32'
  obtain ⟨hl, hlt⟩ := b32_digits his
  obtain ⟨hl', hlt'⟩ := b32_digits his'
  obtain rfl := Regroup.regroup_inj (a := 5) (b := 8) (by decide) (by decide) (by omega)
    ⟨35, by omega⟩ hlt hlt' (hbytes.trans hbytes'.symm)
  obtain rfl := map_b32_inj his his'
  exact String.toList_inj.mp (heq.trans heq'.symm)

end ShadeTree.Bootnode
