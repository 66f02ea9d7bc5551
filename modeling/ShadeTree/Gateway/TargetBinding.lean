import Mathlib.Logic.Equiv.List
import ShadeTree.Gateway.SpentSet
import ShadeTree.Lib.Decimal
import ShadeTree.Lib.Text

/-!
# A proof is bound to one target (`requestSignal`, `signalFieldSafe` and `verifyEnvelope` in `lib/rln.mjs`)

The public signal `x` of a proof is the hash of one text, the target and the nonce behind a fixed line.  The gateway
hashes the fields of the envelope again, after it has seen that they are strings without line ends, and compares what
it gets with `x` as text.
-/

namespace ShadeTree.Gateway

open ShadeTree.Lib

variable {π κ : Type} {R : Rln π κ}

/-! ### The signal and its number -/

lemma readDigits_decimal_eq {cs : List Char} (h : ∀ c ∈ cs, c.isDigit = true) (n : ℕ) :
    readDigits 10 decimalDigit n cs = some (Nat.ofDigitChars 10 cs n) := by
  induction cs generalizing n with
  | nil => rfl
  | cons c cs ih =>
    obtain ⟨hc, hcs⟩ := List.forall_mem_cons.mp h
    have hdigit : decimalDigit c = some (c.toNat - '0'.toNat) := by
      have hrange : '0' ≤ c ∧ c ≤ '9' := Text.toNat_of_isDigit hc
      unfold decimalDigit
      rw [if_pos hrange]
    unfold readDigits
    rw [hdigit]
    exact ih hcs _

/-- The text of a number denotes it. -/
lemma denotedInteger_toString (n : ℕ) : denotedInteger (toString n) = some n := by
  have htext : (toString n).toList = Decimal.digitsText n := by
    rw [Nat.toString_eq_repr, Nat.toList_repr, Decimal.digitsText]
  have hdigits : ∀ c ∈ Decimal.digitsText n, c.isDigit = true := fun c hc => Decimal.isDigit_of_mem hc
  have hread := readDigits_decimal_eq hdigits 0
  have hvalue : Nat.ofDigitChars 10 (Decimal.digitsText n) 0 = n := Nat.ofDigitChars_ten_toDigits
  have hpos : 0 < (Decimal.digitsText n).length := Nat.length_toDigits_pos
  unfold denotedInteger
  rw [htext]
  rw [hvalue] at hread
  generalize Decimal.digitsText n = cs at hdigits hread hpos ⊢
  split
  · cases hpos
  · next c cs =>
    have hx := hdigits 'x' (by simp)
    cases hx
  · exact hread

/-- A text before the first line end, and the rest. -/
lemma append_newline_inj {s t s' t' : List Char} (hs : '\n' ∉ s) (hs' : '\n' ∉ s') (h : s ++ '\n' :: t = s' ++ '\n' :: t') :
    s = s' ∧ t = t' := by
  induction s generalizing s' with
  | nil =>
    cases s' with
    | nil => exact ⟨rfl, (List.cons.inj h).2⟩
    | cons c s' => exact absurd ((List.cons.inj h).1 ▸ List.mem_cons_self) hs'
  | cons c s ih =>
    cases s' with
    | nil => exact absurd ((List.cons.inj h).1 ▸ List.mem_cons_self) hs
    | cons c' s' =>
      obtain ⟨rfl, hrest⟩ := List.cons.inj h
      obtain ⟨rfl, rfl⟩ := ih (fun hmem => hs (List.mem_cons_of_mem _ hmem)) (fun hmem => hs' (List.mem_cons_of_mem _ hmem))
        hrest
      exact ⟨rfl, rfl⟩

lemma newline_notMem {s : String} {maxLen : ℕ} (h : signalFieldSafe s maxLen = true) : '\n' ∉ s.toList := by
  unfold signalFieldSafe at h
  rw [Bool.and_eq_true, List.all_eq_true] at h
  intro hmem
  have hc := h.2 '\n' hmem
  simp at hc

/-- Targets without a line end are told apart, whatever the nonces. -/
lemma requestSignal_inj {target nonce target' nonce' : String} (htarget : '\n' ∉ target.toList)
    (htarget' : '\n' ∉ target'.toList) (h : requestSignal target nonce = requestSignal target' nonce') :
    target = target' ∧ nonce = nonce' := by
  have htext := congrArg String.toList h
  simp only [requestSignal, String.toList_append, List.append_assoc] at htext
  have hline : "\n".toList = ['\n'] := by decide
  rw [hline] at htext
  obtain ⟨ht, hn⟩ := append_newline_inj htarget htarget' (List.append_cancel_left htext)
  exact ⟨String.toList_inj.mp ht, String.toList_inj.mp hn⟩

/-! ### What an accepted envelope is bound to -/

lemma signalFields_ok {env : Envelope π} {target nonce : String} (h : signalFields env = .ok (target, nonce)) :
    env.target = .text target ∧ env.nonce = .text nonce ∧ signalFieldSafe target 256 = true ∧
      signalFieldSafe nonce 128 = true := by
  unfold signalFields at h
  split at h
  · cases h
  · cases h
  · next hnonce htarget =>
    split at h
    · next hsafe =>
      obtain ⟨rfl, rfl⟩ := Prod.mk.inj (Except.ok.inj h)
      exact ⟨htarget, hnonce, hsafe⟩
    · cases h
  · cases h

/-- An accepted envelope has a proof whose `x` is the hash of its target and its nonce, both of them strings. -/
lemma verifyEnvelope_bound {env : Envelope π} {recentRoots : List String} {now : ℤ} {artifacts : ArtifactSet κ}
    {v : Verified} (h : verifyEnvelope R (some env) recentRoots now artifacts = .ok v) :
    ∃ proof target nonce, env.proof = some proof ∧ env.target = .text target ∧ env.nonce = .text nonce ∧
      signalFieldSafe target 256 = true ∧ signalFieldSafe nonce 128 = true ∧
      toString (R.calculateSignalHash (requestSignal target nonce)) = proof.publicSignals.x := by
  unfold verifyEnvelope at h
  simp only [bind, Except.bind] at h
  cases hproof : env.proof with
  | none => simp [hproof] at h
  | some proof =>
  simp only [hproof] at h
  split at h
  swap
  · cases h
  split at h
  swap
  · cases h
  split at h
  · cases h
  next fields hfields =>
  obtain ⟨target, nonce⟩ := fields
  split at h
  swap
  · cases h
  next hx =>
  obtain ⟨htarget, hnonce, hsafe⟩ := signalFields_ok hfields
  exact ⟨proof, target, nonce, rfl, htarget, hnonce, hsafe.1, hsafe.2, hx⟩

/-- **Target binding.** If no two texts have one hash, two accepted envelopes whose proofs show one `x`, as the
verifier reads it, name one target and one nonce, and both name them as strings. -/
theorem target_binding (hhash : Function.Injective R.calculateSignalHash) {env env' : Envelope π} {proof proof' : Proof π}
    {recentRoots recentRoots' : List String} {now now' : ℤ} {artifacts artifacts' : ArtifactSet κ} {v v' : Verified}
    (hok : verifyEnvelope R (some env) recentRoots now artifacts = .ok v)
    (hok' : verifyEnvelope R (some env') recentRoots' now' artifacts' = .ok v') (hproof : env.proof = some proof)
    (hproof' : env'.proof = some proof')
    (hx : denotedInteger proof.publicSignals.x = denotedInteger proof'.publicSignals.x) :
    ∃ target nonce, env.target = .text target ∧ env'.target = .text target ∧ env.nonce = .text nonce ∧
      env'.nonce = .text nonce := by
  obtain ⟨_, target, nonce, heq, htarget, hnonce, hsafe, -, hbound⟩ := verifyEnvelope_bound hok
  obtain ⟨_, target', nonce', heq', htarget', hnonce', hsafe', -, hbound'⟩ := verifyEnvelope_bound hok'
  obtain rfl := Option.some.inj (hproof.symm.trans heq)
  obtain rfl := Option.some.inj (hproof'.symm.trans heq')
  rw [← hbound, ← hbound', denotedInteger_toString, denotedInteger_toString, Option.some.injEq] at hx
  obtain ⟨rfl, rfl⟩ := requestSignal_inj (newline_notMem hsafe) (newline_notMem hsafe') (hhash hx)
  exact ⟨target, nonce, htarget, htarget', hnonce, hnonce'⟩

/-! ### One proof shown twice -/

/-- The package with the hash of one signal as it is, and a code of its own for every other text. -/
def codedRln (code : String → ℕ) : Rln Unit Unit :=
  { oneSlotRln with
    calculateSignalHash := fun signal =>
      if signal = requestSignal "example.com:443" "n1" then
        86915455183957658210373061237190014077351079440883365454214385267811116819
      else 2 ^ 256 + code signal }

lemma codedRln_injective {code : String → ℕ} (hcode : Function.Injective code) :
    Function.Injective (codedRln code).calculateSignalHash := by
  intro s t h
  simp only [codedRln] at h
  split_ifs at h with hs ht ht
  · rw [hs, ht]
  · omega
  · omega
  · exact hcode (Nat.add_left_cancel h)

/-- Only the hash of the envelope's own signal counts. -/
lemma verifyEnvelope_coded (code : String → ℕ) (nullifier : String) :
    verifyEnvelope (codedRln code) (slotArrival nullifier "n1").envelope ["2"] 1700000040000 builtinArtifact =
      verifyEnvelope oneSlotRln (slotArrival nullifier "n1").envelope ["2"] 1700000040000 builtinArtifact := by
  have hfields : ∀ env : Envelope Unit, env.nonce = .text "n1" → env.target = .text "example.com:443" →
      signalFields env = .ok ("example.com:443", "n1") := by
    rintro ⟨proof, share, target, field, artifact⟩ rfl rfl
    rfl
  have hepoch : currentEpoch (codedRln code) = currentEpoch oneSlotRln := rfl
  have hid : (codedRln code).rlnIdentifier = oneSlotRln.rlnIdentifier := rfl
  have hexternal : (codedRln code).calculateExternalNullifier = oneSlotRln.calculateExternalNullifier := rfl
  have hscope : externalNullifierFor (codedRln code) = externalNullifierFor oneSlotRln := by
    unfold externalNullifierFor
    rw [hexternal, hid]
  have hverify : (codedRln code).verifyProof = oneSlotRln.verifyProof := rfl
  have hhash : (codedRln code).calculateSignalHash (requestSignal "example.com:443" "n1") =
      oneSlotRln.calculateSignalHash (requestSignal "example.com:443" "n1") := by simp [codedRln, oneSlotRln]
  simp only [verifyEnvelope, slotArrival, hfields, bind, Except.bind, hepoch, hscope, hverify, hid, hhash]

/-- A proof whose nullifier is spelled in decimal, and again in hexadecimal. -/
theorem target_binding_two_spellings : ∃ code : String → ℕ, ∃ env env' v v',
    verifyEnvelope (codedRln code) (some env) ["2"] 1700000040000 builtinArtifact = .ok v ∧
      verifyEnvelope (codedRln code) (some env') ["2"] 1700000040000 builtinArtifact = .ok v' ∧ v ≠ v' ∧
      ∃ target nonce, env.target = .text target ∧ env'.target = .text target ∧ env.nonce = .text nonce ∧
        env'.nonce = .text nonce := by
  have hchar : Countable Char := Function.Injective.countable (f := Char.toNat) fun _ _ => Char.toNat_inj.mp
  have hstring : Countable String := Function.Injective.countable (f := String.toList) fun _ _ => String.toList_inj.mp
  obtain ⟨code, hcode⟩ := exists_injective_nat String
  have hok := (verifyEnvelope_coded code decimalNullifier).trans (slot_verifies (.inl rfl) denotedInteger_decimal)
  have hok' := (verifyEnvelope_coded code hexNullifier).trans (slot_verifies (.inl rfl) denotedInteger_hex)
  refine ⟨code, _, _, _, _, hok, hok', ?_, target_binding (codedRln_injective hcode) hok hok' rfl rfl rfl⟩
  exact fun h => absurd (congrArg Verified.nullifier h) (by decide)

end ShadeTree.Gateway
