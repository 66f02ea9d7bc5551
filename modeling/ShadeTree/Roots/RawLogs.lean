import ShadeTree.Bootnode.Delta
import ShadeTree.Gateway.Envelope
import ShadeTree.Lib.SortBy
import ShadeTree.Roots.Reconstruct

/-!
# The logs as the node returns them (`lib/root-provider.mjs`)

`eth_getLogs` returns its numbers as texts.  `reconstructGroup` reads them as it goes: the comparator of the sort
reads block and log index of the two logs it is given, the loop the topics of the log it is at, and what is not a
number is thrown there.  On logs whose texts are in order this is the replay of the logs they write down.
-/

namespace ShadeTree.Roots

open ShadeTree.Lib ShadeTree.Gateway
open ShadeTree.Bootnode (trim isSpace)

/-- A log with the fields that are read, each a text if it is there. -/
structure RawLog where
  blockNumber : Option String
  logIndex : Option String
  topics : Option (List String)
  deriving DecidableEq

/-! ### Texts of numbers -/

/-- One digit or more. -/
def digitsOf (base : ℕ) (digit : Char → Option ℕ) : List Char → Option ℕ
  | [] => none
  | c :: cs => readDigits base digit 0 (c :: cs)

/-- The digits below `base`. -/
def digitBelow (base : ℕ) (c : Char) : Option ℕ := (decimalDigit c).filter (· < base)

/-- `BigInt(s)` of a text. -/
def bigInt (s : String) : Option ℤ :=
  match trim s.toList with
  | [] => some 0
  | '0' :: 'x' :: ds | '0' :: 'X' :: ds => (digitsOf 16 hexDigit ds).map Int.ofNat
  | '0' :: 'o' :: ds | '0' :: 'O' :: ds => (digitsOf 8 (digitBelow 8) ds).map Int.ofNat
  | '0' :: 'b' :: ds | '0' :: 'B' :: ds => (digitsOf 2 (digitBelow 2) ds).map Int.ofNat
  | '-' :: ds => (digitsOf 10 decimalDigit ds).map fun n => -(n : ℤ)
  | '+' :: ds => (digitsOf 10 decimalDigit ds).map Int.ofNat
  | ds => (digitsOf 10 decimalDigit ds).map Int.ofNat

/-- `BigInt` of a field. -/
def BigInt : Option String → Except String ℤ
  | none => .error "Cannot convert undefined to a BigInt"
  | some s =>
    match bigInt s with
    | none => .error s!"Cannot convert {s} to a BigInt"
    | some n => .ok n

/-- `TOPIC`. -/
def TOPIC : List (String × Topic) :=
  [("0x0dbb6a3ed41d8f3d21e481b86d0e8bbf65a630b7dc4c5ee6c2c1a74561841e6d", .registered),
    ("0x509c8735bf3647b16c92625a43b5459d0b51845aa0f3ec846f9d24594e7b824b", .registeredV4),
    ("0x971e754215411b0ec07054d759063d876d53872b7d4b37294744e5a776604f37", .exiting),
    ("0x8f2d81dd61a3f7ff90ea7265e45192f03f643615dd2458e287d84aaac222ffe9", .withdrawn),
    ("0x707cd9719d0c14265b9e456f7add99095401f907e570e5cdd65a92920947c450", .slashed),
    ("0x0a39eb0fcb6a37e10a529e106ae887cbd1721626fa57900170ed0c2437af3797", .slashedV4),
    ("0x829b3fd9a2105b78eea5138f4d692eb507be107a9b265a9456ea94fb2db9f992", .inserted),
    ("0x9b776d199f09c774f5b205c9bc2ac6f40d508c347aaea919867eeaf06ebef0e9", .deposit),
    ("0xac0c8be2061774c705c517af2a774ab5cb33a2d7fe7054dd4a2728433026029c", .paidSlashed)]

/-- Which event a `topic0` in lower case is. -/
def topicOf (topic0 : String) : Topic := (TOPIC.lookup topic0).getD .other

/-! ### The replay -/

namespace RawLog

/-- The comparator of the sort; `Number` of a difference keeps its sign. -/
def compare (a b : RawLog) : Except String ℤ := do
  let block := (← BigInt a.blockNumber) - (← BigInt b.blockNumber)
  if block ≠ 0 then return block
  return (← BigInt a.logIndex) - (← BigInt b.logIndex)

def le (a b : RawLog) : Except String Bool := (compare a b).map (· ≤ 0)

/-- What an iteration of the loop reads of its log. -/
def event (log : RawLog) : Except String MemberEvent :=
  match log.topics with
  | none => .error "Cannot read properties of undefined (reading '0')"
  | some topics =>
    let topic0 := Directory.toLowerCase (topics.head?.getD "")
    match BigInt topics[1]? with
    | .error msg => .error msg
    | .ok (.ofNat commitment) => .ok ⟨topicOf topic0, commitment⟩
    -- a topic is 32 bytes without a sign; what the package does with a negative member is not modelled
    | .ok (.negSucc _) => .error "negative commitment"

end RawLog

section Replay

variable {H : ℕ → ℕ → ℕ} {z depth : ℕ} {L : RLNGroup H z depth}

/-- The loop of `reconstructGroup` over the logs themselves. -/
def Replay.rawLoop (trackFrom : Option ℕ) : ℕ → Replay L → List RawLog → Except String (Replay L)
  | _, r, [] => .ok r
  | position, r, log :: logs =>
    match log.event with
    | .error msg => .error msg
    | .ok e =>
      match r.step trackFrom position e with
      | .error msg => .error msg
      | .ok r' => Replay.rawLoop trackFrom (position + 1) r' logs

variable (L)

/-- `reconstructGroup(logs, { trackFrom })` on the logs themselves. -/
def reconstructRaw (trackFrom : Option ℕ) (logs : List RawLog) : Except String (Replay L) :=
  match sortBy RawLog.le logs with
  | .error msg => .error msg
  | .ok ordered => Replay.rawLoop trackFrom 0 (Replay.new L) ordered

end Replay

/-! ### What a log writes down -/

/-- A text that writes a number in hexadecimal, with `0x` before it. -/
def HexText (s : String) (n : ℕ) : Prop :=
  ∃ c cs, s.toList = '0' :: 'x' :: c :: cs ∧ readDigits 16 hexDigit 0 (c :: cs) = some n

/-- The log writes down a log of a membership event. -/
structure RawLog.Writes (raw : RawLog) (log : Log) : Prop where
  blockNumber : ∃ s, raw.blockNumber = some s ∧ HexText s log.blockNumber
  logIndex : ∃ s, raw.logIndex = some s ∧ HexText s log.logIndex
  topics : ∃ topic0 topic1 rest, raw.topics = some (topic0 :: topic1 :: rest) ∧ (∃ n, HexText topic0 n) ∧
    topicOf (Directory.toLowerCase topic0) = log.event.topic ∧ HexText topic1 log.event.commitment
  known : log.event.topic ≠ .other

/-- A character of a hexadecimal number. -/
lemma hexDigit_some {c : Char} {d : ℕ} (h : hexDigit c = some d) :
    48 ≤ c.toNat ∧ c.toNat ≤ 57 ∨ 65 ≤ c.toNat ∧ c.toNat ≤ 70 ∨ 97 ≤ c.toNat ∧ c.toNat ≤ 102 := by
  unfold hexDigit at h
  split at h
  · next hc => exact .inr (.inr ⟨hc.1, hc.2⟩)
  split at h
  · next hc => exact .inr (.inl ⟨hc.1, hc.2⟩)
  · have := decimalDigit_some h
    omega

lemma readDigits_digits {base : ℕ} {digit : Char → Option ℕ} {n m : ℕ} {cs : List Char}
    (h : readDigits base digit n cs = some m) : ∀ c ∈ cs, ∃ d, digit c = some d := by
  induction cs generalizing n with
  | nil => simp
  | cons c cs ih =>
    unfold readDigits at h
    cases hc : digit c with
    | none => simp [hc] at h
    | some d =>
      simp only [hc] at h
      intro c' hc'
      rcases List.mem_cons.mp hc' with rfl | hc'
      · exact ⟨d, hc⟩
      · exact ih h c' hc'

/-- The characters of a text in hexadecimal. -/
lemma HexText.chars {s : String} {n : ℕ} (h : HexText s n) : ∀ c ∈ s.toList,
    48 ≤ c.toNat ∧ c.toNat ≤ 57 ∨ 65 ≤ c.toNat ∧ c.toNat ≤ 70 ∨ 97 ≤ c.toNat ∧ c.toNat ≤ 102 ∨ c = 'x' := by
  obtain ⟨c, cs, hs, hread⟩ := h
  intro d hd
  rw [hs] at hd
  rcases List.mem_cons.mp hd with rfl | hd
  · decide
  rcases List.mem_cons.mp hd with rfl | hd
  · decide
  obtain ⟨m, hm⟩ := readDigits_digits hread d hd
  have := hexDigit_some hm
  omega

/-- A text without spaces is not trimmed. -/
lemma trim_eq_self {s : List Char} (h : ∀ c ∈ s, isSpace c = false) : trim s = s := by
  have hdrop : s.dropWhile isSpace = s := by
    cases s with
    | nil => rfl
    | cons c s => rw [List.dropWhile_cons_of_neg (by simp [h c List.mem_cons_self])]
  unfold trim
  rw [hdrop, List.rdropWhile_eq_self_iff]
  intro hne
  simp [h _ (List.getLast_mem hne)]

lemma HexText.bigInt {s : String} {n : ℕ} (h : HexText s n) : bigInt s = some (n : ℤ) := by
  have hspace : ∀ c ∈ s.toList, isSpace c = false := by
    intro c hc
    have hchar := h.chars c hc
    unfold isSpace
    rcases hchar with hc | hc | hc | rfl
    all_goals first
      | decide
      | simp only [Bool.or_eq_false_iff, Bool.and_eq_false_iff, decide_eq_false_iff_not, List.mem_cons,
          List.not_mem_nil, or_false]
        omega
  obtain ⟨c, cs, hs, hread⟩ := h
  unfold Roots.bigInt
  rw [trim_eq_self hspace, hs]
  simp only [digitsOf, hread]
  rfl

lemma HexText.BigInt {s : String} {n : ℕ} (h : HexText s n) : BigInt (some s) = .ok (n : ℤ) := by
  simp only [Roots.BigInt, h.bigInt]

namespace RawLog.Writes

variable {a b raw : RawLog} {l m log : Log}

lemma event_eq (h : raw.Writes log) : raw.event = .ok log.event := by
  obtain ⟨topic0, topic1, rest, htopics, -, htopic, hcommitment⟩ := h.topics
  unfold RawLog.event
  simp only [htopics, List.head?_cons, Option.getD_some, List.getElem?_cons_succ, List.getElem?_cons_zero,
    hcommitment.BigInt, htopic]

/-- The comparator orders the logs as the logs they write down. -/
lemma le_eq (ha : a.Writes l) (hb : b.Writes m) : a.le b = .ok (decide (l.le m)) := by
  obtain ⟨s, hs, hblock⟩ := ha.blockNumber
  obtain ⟨t, ht, hblock'⟩ := hb.blockNumber
  obtain ⟨i, hi, hindex⟩ := ha.logIndex
  obtain ⟨j, hj, hindex'⟩ := hb.logIndex
  unfold RawLog.le compare
  simp only [hs, ht, hi, hj, hblock.BigInt, hblock'.BigInt, hindex.BigInt, hindex'.BigInt, bind, Except.bind,
    pure, Except.pure]
  by_cases hne : (l.blockNumber : ℤ) - m.blockNumber ≠ 0
  · rw [if_pos hne]
    refine congrArg Except.ok (decide_eq_decide.mpr ?_)
    simp only [Log.le]
    omega
  · rw [if_neg hne]
    refine congrArg Except.ok (decide_eq_decide.mpr ?_)
    simp only [Log.le]
    omega

end RawLog.Writes

variable {H : ℕ → ℕ → ℕ} {z depth : ℕ} {L : RLNGroup H z depth} {raws : List RawLog} {logs : List Log}

lemma rawLoop_eq (h : List.Forall₂ RawLog.Writes raws logs) (trackFrom : Option ℕ) (position : ℕ) (r : Replay L) :
    Replay.rawLoop trackFrom position r raws = Replay.loop trackFrom position r (logs.map Log.event) := by
  induction h generalizing position r with
  | nil => rfl
  | @cons _ log _ _ hwrites _ ih =>
    rw [Replay.rawLoop, hwrites.event_eq, List.map_cons, Replay.loop]
    cases hstep : r.step trackFrom position log.event with
    | error msg => simp only [hstep]
    | ok r' => simp only [hstep, ih]

/-- The replay of the logs is the replay of what they write down. -/
theorem reconstructRaw_eq (h : List.Forall₂ RawLog.Writes raws logs) (trackFrom : Option ℕ) :
    reconstructRaw L trackFrom raws = reconstructGroup L trackFrom logs := by
  have hle : ∀ a a' b b', RawLog.Writes a b → RawLog.Writes a' b' → a.le a' = .ok (decide (Log.le b b')) :=
    fun _ _ _ _ ha hb => RawLog.Writes.le_eq ha hb
  obtain ⟨ordered, hsorted, hrel⟩ := sortBy_related hle h
  unfold reconstructRaw reconstructGroup
  rw [hsorted]
  exact rawLoop_eq hrel trackFrom 0 (Replay.new L)

/-! ### Room in the tree -/

/-- The registrations among the events. -/
def registrations (es : List MemberEvent) : ℕ := es.countP fun e => e.topic.isRegistered

/-- As many registrations as the tree has leaves, at most, find room in it. -/
lemma Admission.fits_of_registrations {A : Admission} {es : List MemberEvent}
    (h : A.leaves.length + registrations es ≤ 2 ^ depth) : A.Fits z depth es := by
  induction es generalizing A with
  | nil => trivial
  | cons e es ih =>
    simp only [registrations, List.countP_cons] at h
    refine ⟨fun hreg _ => ?_, ih ?_⟩
    · rw [if_pos hreg] at h
      omega
    have hlen : (A.apply z e).leaves.length ≤ A.leaves.length + if e.topic.isRegistered = true then 1 else 0 := by
      unfold Admission.apply
      split
      · split
        · exact Nat.le_add_right _ _
        · simp [Admission.append]
      · split
        · split
          · exact Nat.le_refl _
          · simp [Admission.vacate]
        · exact Nat.le_refl _
    unfold registrations
    omega

end ShadeTree.Roots
