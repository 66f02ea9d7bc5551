import Mathlib.Data.List.Forall2
import ShadeTree.Directory.Threshold

/-!
# Selection (`selectionOrder` in `lib/directory.mjs`, `selectCandidates` in `client/selection.mjs`)

Of an accepted directory a client keeps what passes its filters and draws gateways by weight.  A report on a gateway
marks its entry, and later draws avoid what is marked down.  The doubles that weights are computed in, the way a
string is read as a number, and what re-verification asks the bootnode and the chain are parameters.

Left out are the tallies of receipts and the smooth rotation, state of the client that reads of an entry the onion,
the health and the weight, and the latency, which no choice reads.
-/

namespace ShadeTree.Directory

open ShadeTree.Lib

/-- Doubles. -/
structure Doubles (F : Type) where
  ofNat : ℕ → F
  ofNumber : Number → F
  /-- `Number(s)`. -/
  ofText : List Char → F
  nan : F
  isFinite : F → Bool
  add : F → F → F
  sub : F → F → F
  mul : F → F → F
  min : F → F → F
  max : F → F → F
  lt : F → F → Bool
  le : F → F → Bool
  /-- `Math.floor(x)` as an index. -/
  index : F → ℕ
  /-- The number plus 1. -/
  succ : Number → Number

def MAX_WEIGHT : ℕ := 1000

/-- `g.onion`; of an accepted directory it is a string. -/
def entryOnion (g : Value) : Option String := (g.get "onion").bind Value.asString

/-- `g.health === "down"`. -/
def isDown (g : Value) : Bool :=
  match g.get "health" with
  | some (.str health) => health = "down"
  | _ => false

section Weights

variable {F : Type} (D : Doubles F)

/-- `Number(v)`; `none` when it throws. -/
def toNumber : Option Value → Option F
  | none => some D.nan
  | some .null => some (D.ofNat 0)
  | some (.bool b) => some (D.ofNat b.toNat)
  | some (.num n) => some (D.ofNumber n)
  | some (.str s) => some (D.ofText s.toList)
  | some v => (Value.toText v).map D.ofText

def clampWeight (g : Value) : Option F :=
  (toNumber D (g.get "weight")).map fun w =>
    if D.isFinite w then D.max (D.ofNat 0) (D.min (D.ofNat MAX_WEIGHT) w) else D.ofNat 1

/-! ### The draw -/

/-- `reduce`. -/
def totalWeight (s : F) : List Value → Option F
  | [] => some s
  | g :: pool => (clampWeight D g).bind fun w => totalWeight (D.add s w) pool

/-- The loop that takes weights off `r`. -/
def walk (r : F) : List Value → Option (Option Value)
  | [] => some none
  | g :: pool => (clampWeight D g).bind fun w =>
      if D.lt (D.sub r w) (D.ofNat 0) then some (some g) else walk (D.sub r w) pool

/-- What is drawn from: what is not down, or all if everything is. -/
def poolOf (all : List Value) : List Value :=
  let healthy := all.filter fun g => !isDown g
  if healthy = [] then all else healthy

/-- `pickGateway` with the number that `rng` gives; `none` when it throws. -/
def pickGateway (exclude : List (Option String)) (draw : F) (gateways : List Value) : Option (Option Value) :=
  let all := gateways.filter fun g => entryOnion g ∉ exclude
  if all = [] then some none
  else
    let pool := poolOf all
    (totalWeight D (D.ofNat 0) pool).bind fun total =>
      if D.le total (D.ofNat 0) then some pool[D.index (D.mul draw (D.ofNat pool.length))]?
      else (walk D (D.mul draw total) pool).map fun picked => picked.or pool.getLast?

/-- The loop of `selectionOrder` after `k` draws. -/
def selectFrom (rng : ℕ → F) (gateways : List Value) : ℕ → ℕ → List (Option String) → Option (List Value)
  | 0, _, _ => some []
  | fuel + 1, k, exclude =>
    (pickGateway D exclude (rng k) gateways).bind fun picked =>
      match picked with
      | none => some []
      | some g => (selectFrom rng gateways fuel (k + 1) (exclude ++ [entryOnion g])).map (g :: ·)

/-- Every draw excludes an onion, so that there are as many as entries at most. -/
def selectionOrder (rng : ℕ → F) (gateways : List Value) : Option (List Value) :=
  selectFrom D rng gateways gateways.length 0 []

/-! ### Reports -/

structure HealthReport where
  onion : String
  ok : Option Bool

/-- `(g._fails || 0) + 1`; `none` when it throws. -/
def countFail (fails : Option Value) : Option Value :=
  match fails.filter Value.truthy with
  | none => some (.num (.fin (.ofInt 1)))
  | some (.bool _) => some (.num (.fin (.ofInt 2)))
  | some (.num n) => some (.num (D.succ n))
  | some v => (Value.toText v).map fun text => .str (String.ofList (text ++ ['1']))

/-- The entry after a report on it. -/
def mark (ok : Option Bool) (g : Value) : Option Value :=
  match ok with
  | none => some g
  | some true => some ((g.set "_fails" (.num (.fin (.ofInt 0)))).set "health" (.str "up"))
  | some false =>
    (countFail D (g.get "_fails")).bind fun fails =>
      (toNumber D (some fails)).map fun n =>
        let g := g.set "_fails" fails
        if D.le (D.ofNat 2) n then g.set "health" (.str "down") else g

/-- `reportHealth`: the first entry with the onion is marked; `none` when it throws. -/
def reportHealth (report : HealthReport) : List Value → Option (List Value)
  | [] => some []
  | g :: gateways =>
    if entryOnion g = some report.onion then (mark D report.ok g).map (· :: gateways)
    else (reportHealth report gateways).map (g :: ·)

/-- The entries after reports; one that throws leaves them as they are. -/
def afterReports (gateways : List Value) (reports : List HealthReport) : List Value :=
  reports.foldl (fun gateways report => (reportHealth D report gateways).getD gateways) gateways

end Weights

/-! ### Filters -/

/-- What re-verification asks: the announce of an onion, and the checks of `verifyAnnounce` with the stake. -/
structure Announces where
  fetchAnnounce : String → Except String Value
  verifyAnnounce : Value → Except String Unit

/-- The entry claims stake. -/
def claimsStake (g : Value) : Bool := (g.get "operator").any Value.truthy

/-- `reverifyGateway` of an entry that claims stake; `none` when it throws. -/
def reverifyGateway (W : Announces) (g : Value) : Option (Except String Unit) :=
  let onion := (entryOnion g).getD ""
  match W.fetchAnnounce onion with
  | .error e => some (.error ("announce-fetch-failed:" ++ e))
  | .ok announce =>
    let want := Bootnode.dropOnion onion.toList
    (((announce.get "onion").filter Value.truthy).elim (some []) Value.toText).map fun text =>
      if Bootnode.dropOnion text ≠ want then .error "announce-onion-mismatch" else W.verifyAnnounce announce

def filterReverified (W : Announces) : List Value → Option (List Value)
  | [] => some []
  | g :: gateways =>
    (if claimsStake g then reverifyGateway W g else some (.ok ())).bind fun v =>
      (filterReverified W gateways).map fun kept => if v.isOk then g :: kept else kept

def DEFAULT_EGRESS_PORT : ℤ := 443

def DEFAULT_PROTO_VERSION : ℤ := 4

/-- What a request requires; a port or a version that is no number is left out. -/
structure Requirement where
  port : Option ℚ
  proto : Option ℚ
  region : Option String
  rate : Option Value

def gatewayMeetsRequirement (req : Requirement) (g : Value) : Bool :=
  let caps := canonicalCaps (g.get "caps")
  (req.port.all fun port =>
    match caps.ports with
    | some ports => ports.any fun p => (p : ℚ) = port
    | none => port = DEFAULT_EGRESS_PORT) &&
  (req.proto.all fun v =>
    match caps.proto with
    | some (min, max) => (min : ℚ) ≤ v && v ≤ max
    | none => v = DEFAULT_PROTO_VERSION) &&
  (req.region.all fun region => caps.region = some region) &&
  req.rate.all fun rate => caps.rate.isSome && caps.rate = canonicalRate (some rate)

def requirementActive (req : Requirement) : Bool :=
  req.port.isSome || req.proto.isSome || req.region.isSome || req.rate.isSome

def filterByCapability (req : Requirement) (gateways : List Value) : List Value :=
  if requirementActive req then gateways.filter (gatewayMeetsRequirement req) else gateways

/-- The leaf of a client and whether it wants invited members only. -/
structure Admission where
  leafSource : Option String
  maxAnon : Bool

def admitsOf (g : Value) : Option (List String) := (canonicalCaps (g.get "caps")).admits

/-- The leaf source that a filter looks for. -/
def Admission.source (adm : Admission) : Option String := adm.leafSource.filter fun s => s ≠ "" ∧ s ≠ "auto"

def admissionActive (adm : Admission) : Bool := adm.source.isSome || adm.maxAnon

/-- `filterByAdmission` of one entry. -/
def admitted (adm : Admission) (g : Value) : Bool :=
  if adm.maxAnon then admitsOf g = some ["invited"]
  else
    match admitsOf g with
    | none => true
    | some admits => adm.source.any fun s => s ∈ admits

def filterByAdmission (adm : Admission) (gateways : List Value) : List Value :=
  if admissionActive adm then gateways.filter (admitted adm) else gateways

/-! ### Candidates -/

structure Candidate where
  onion : List Char
  artifacts : Option (List String)
  admits : Option (List String)
  rate : Option CanonicalRate

def candidateOf (g : Value) : Candidate where
  onion := Bootnode.dropOnion ((entryOnion g).getD "").toList
  artifacts := (canonicalCaps (g.get "caps")).artifacts
  admits := admitsOf g
  rate := (canonicalCaps (g.get "caps")).rate

/-- `describeFleetAdmits`. -/
def describeFleetAdmits (gateways : List Value) : List (List Char × Option (List String)) :=
  gateways.map fun g => (((entryOnion g).getD "").toList.take 12, admitsOf g)

structure ClientOptions where
  /-- `VERIFY_STAKE`. -/
  verifyStake : Bool
  adm : Admission
  req : Requirement

/-- What `selectCandidates` returns, or why it throws. -/
inductive Selection where
  | candidates (order : List Candidate)
  | noInvited (fleet : List (List Char × Option (List String)))
  | noAdmits (leafSource : Option String) (fleet : List (List Char × Option (List String)))
  | noCapable (req : Requirement)
  | threw

section Select

variable {F : Type} (D : Doubles F) (W : Announces) (options : ClientOptions) (rng : ℕ → F)

/-- `selectCandidates` once the stake is verified. -/
def selectVerified (gateways : List Value) : Selection :=
  let passed := filterByAdmission options.adm gateways
  if admissionActive options.adm ∧ passed = [] then
    if options.adm.maxAnon then .noInvited (describeFleetAdmits gateways)
    else .noAdmits options.adm.leafSource (describeFleetAdmits gateways)
  else
    let capable := filterByCapability options.req passed
    if requirementActive options.req ∧ capable = [] then .noCapable options.req
    else
      match selectionOrder D rng capable with
      | none => .threw
      | some order => .candidates (order.map candidateOf)

def selectCandidates (gateways : List Value) : Selection :=
  if options.verifyStake then
    match filterReverified W gateways with
    | none => .threw
    | some kept => selectVerified D options rng kept
  else selectVerified D options rng gateways

end Select

/-! ### Entries that are alike -/

section Alike

/-- Entries that selection cannot tell apart. -/
structure Alike (g g' : Value) : Prop where
  obj : (∃ fields, g = .obj fields) ∧ ∃ fields, g' = .obj fields
  onion : entryOnion g = entryOnion g'
  down : isDown g = isDown g'
  weight : g.get "weight" = g'.get "weight"
  caps : canonicalCaps (g.get "caps") = canonicalCaps (g'.get "caps")
  operator : claimsStake g = claimsStake g'
  fails : (g.get "_fails").filter Value.truthy = (g'.get "_fails").filter Value.truthy

variable {F : Type} {D : Doubles F} {g g' : Value} {gs gs' : List Value}

lemma Alike.clampWeight (h : Alike g g') : clampWeight D g = clampWeight D g' := by
  unfold Directory.clampWeight
  rw [h.weight]

/-- The same mark on both. -/
lemma Alike.set_fails (h : Alike g g') (v : Value) : Alike (g.set "_fails" v) (g'.set "_fails" v) := by
  obtain ⟨⟨fields, rfl⟩, fields', rfl⟩ := h.obj
  have hget : ∀ key, key ≠ "_fails" → ∀ fields : List (String × Value),
      ((Json.obj fields).set "_fails" v).get key = (Json.obj fields).get key :=
    fun key hkey fields => Json.get_set_of_ne hkey v fields
  refine ⟨⟨⟨_, rfl⟩, _, rfl⟩, ?_, ?_, ?_, ?_, ?_, ?_⟩
  · simpa only [entryOnion, hget "onion" (by decide)] using h.onion
  · simpa only [isDown, hget "health" (by decide)] using h.down
  · simpa only [hget "weight" (by decide)] using h.weight
  · simpa only [hget "caps" (by decide)] using h.caps
  · simpa only [claimsStake, hget "operator" (by decide)] using h.operator
  · rw [Json.get_set_self, Json.get_set_self]

lemma Alike.set_health (h : Alike g g') (v : Value) : Alike (g.set "health" v) (g'.set "health" v) := by
  obtain ⟨⟨fields, rfl⟩, fields', rfl⟩ := h.obj
  have hget : ∀ key, key ≠ "health" → ∀ fields : List (String × Value),
      ((Json.obj fields).set "health" v).get key = (Json.obj fields).get key :=
    fun key hkey fields => Json.get_set_of_ne hkey v fields
  refine ⟨⟨⟨_, rfl⟩, _, rfl⟩, ?_, ?_, ?_, ?_, ?_, ?_⟩
  · simpa only [entryOnion, hget "onion" (by decide)] using h.onion
  · simp only [isDown, Json.get_set_self]
  · simpa only [hget "weight" (by decide)] using h.weight
  · simpa only [hget "caps" (by decide)] using h.caps
  · simpa only [claimsStake, hget "operator" (by decide)] using h.operator
  · simpa only [hget "_fails" (by decide)] using h.fails

lemma rel_bind {α β : Type} {R : α → α → Prop} {S : β → β → Prop} {f f' : α → Option β} {x x' : Option α}
    (h : Option.Rel R x x') (hf : ∀ a a', R a a' → Option.Rel S (f a) (f' a')) :
    Option.Rel S (x.bind f) (x'.bind f') := by
  cases h with
  | none => exact .none
  | some hab => exact hf _ _ hab

lemma rel_map {α β : Type} {R : α → α → Prop} {S : β → β → Prop} {f f' : α → β} {x x' : Option α}
    (h : Option.Rel R x x') (hf : ∀ a a', R a a' → S (f a) (f' a')) : Option.Rel S (x.map f) (x'.map f') := by
  cases h with
  | none => exact .none
  | some hab => exact .some (hf _ _ hab)

lemma rel_eq_bind {α β : Type} {S : β → β → Prop} {f f' : α → Option β} (x : Option α)
    (hf : ∀ a, Option.Rel S (f a) (f' a)) : Option.Rel S (x.bind f) (x.bind f') := by
  cases x with
  | none => exact .none
  | some a => exact hf a

lemma map_eq_of_forall₂ {α β : Type} {R : α → α → Prop} {f : α → β} (hf : ∀ a b, R a b → f a = f b) {l l' : List α}
    (h : List.Forall₂ R l l') : l.map f = l'.map f := by
  induction h with
  | nil => rfl
  | cons hab _ ih => rw [List.map_cons, List.map_cons, hf _ _ hab, ih]

lemma rel_eq_map {α β : Type} {S : β → β → Prop} {f f' : α → β} (x : Option α) (hf : ∀ a, S (f a) (f' a)) :
    Option.Rel S (x.map f) (x.map f') := by
  cases x with
  | none => exact .none
  | some a => exact .some (hf a)

lemma alike_filter {p : Value → Bool} (hp : ∀ g g', Alike g g' → p g = p g') (h : List.Forall₂ Alike gs gs') :
    List.Forall₂ Alike (gs.filter p) (gs'.filter p) := by
  induction h with
  | nil => exact .nil
  | cons hab hrest ih =>
    rw [List.filter_cons, List.filter_cons, hp _ _ hab]
    split
    · exact .cons hab ih
    · exact ih

lemma alike_eq_nil (h : List.Forall₂ Alike gs gs') : gs = [] ↔ gs' = [] := by
  cases h <;> simp

/-! ### Draws from both -/

lemma totalWeight_eq (h : List.Forall₂ Alike gs gs') (s : F) : totalWeight D s gs = totalWeight D s gs' := by
  induction h generalizing s with
  | nil => rfl
  | cons hab _ ih =>
    unfold totalWeight
    rw [hab.clampWeight]
    exact Option.bind_congr fun w _ => ih _

lemma alike_poolOf (h : List.Forall₂ Alike gs gs') : List.Forall₂ Alike (poolOf gs) (poolOf gs') := by
  have hhealthy : List.Forall₂ Alike (gs.filter fun g => !isDown g) (gs'.filter fun g => !isDown g) :=
    alike_filter (fun g g' hg => by rw [hg.down]) h
  unfold poolOf
  dsimp only
  by_cases hnil : (gs.filter fun g => !isDown g) = []
  · rw [if_pos hnil, if_pos ((alike_eq_nil hhealthy).mp hnil)]
    exact h
  · rw [if_neg hnil, if_neg fun h' => hnil ((alike_eq_nil hhealthy).mpr h')]
    exact hhealthy

/-- What two draws give: both throw, both give nothing, or entries that are alike. -/
abbrev AlikePicks : Option (Option Value) → Option (Option Value) → Prop := Option.Rel (Option.Rel Alike)

lemma alike_walk (h : List.Forall₂ Alike gs gs') (r : F) : AlikePicks (walk D r gs) (walk D r gs') := by
  induction h generalizing r with
  | nil => exact .some .none
  | cons hab _ ih =>
    unfold walk
    rw [hab.clampWeight]
    refine rel_eq_bind _ fun w => ?_
    split
    · exact .some (.some hab)
    · exact ih _

lemma alike_getElem? (h : List.Forall₂ Alike gs gs') (i : ℕ) : Option.Rel Alike gs[i]? gs'[i]? := by
  induction h generalizing i with
  | nil => exact .none
  | cons hab _ ih =>
    cases i with
    | zero => exact .some hab
    | succ i => simpa using ih i

lemma alike_getLast? (h : List.Forall₂ Alike gs gs') : Option.Rel Alike gs.getLast? gs'.getLast? := by
  rw [List.getLast?_eq_getElem?, List.getLast?_eq_getElem?, h.length_eq]
  exact alike_getElem? h _

lemma alike_pickGateway (h : List.Forall₂ Alike gs gs') (exclude : List (Option String)) (draw : F) :
    AlikePicks (pickGateway D exclude draw gs) (pickGateway D exclude draw gs') := by
  have hall : List.Forall₂ Alike (gs.filter fun g => entryOnion g ∉ exclude) (gs'.filter fun g => entryOnion g ∉ exclude) :=
    alike_filter (fun g g' hg => by rw [hg.onion]) h
  have hpool := alike_poolOf hall
  unfold pickGateway
  dsimp only
  by_cases hnil : (gs.filter fun g => entryOnion g ∉ exclude) = []
  · rw [if_pos hnil, if_pos ((alike_eq_nil hall).mp hnil)]
    exact .some .none
  rw [if_neg hnil, if_neg fun h' => hnil ((alike_eq_nil hall).mpr h'), totalWeight_eq hpool, hpool.length_eq]
  refine rel_eq_bind _ fun total => ?_
  split
  · exact .some (alike_getElem? hpool _)
  · refine rel_map (alike_walk hpool _) fun picked picked' hpicked => ?_
    cases hpicked with
    | none => exact alike_getLast? hpool
    | some hg => exact .some hg

lemma alike_selectFrom (h : List.Forall₂ Alike gs gs') (rng : ℕ → F) (fuel k : ℕ) (exclude : List (Option String)) :
    Option.Rel (List.Forall₂ Alike) (selectFrom D rng gs fuel k exclude) (selectFrom D rng gs' fuel k exclude) := by
  induction fuel generalizing k exclude with
  | zero => exact .some .nil
  | succ fuel ih =>
    refine rel_bind (alike_pickGateway h exclude (rng k)) fun picked picked' hpicked => ?_
    cases hpicked with
    | none => exact .some .nil
    | some hg =>
      dsimp only
      rw [hg.onion]
      exact rel_map (ih _ _) fun order order' horder => .cons hg horder

lemma alike_selectionOrder (h : List.Forall₂ Alike gs gs') (rng : ℕ → F) :
    Option.Rel (List.Forall₂ Alike) (selectionOrder D rng gs) (selectionOrder D rng gs') := by
  unfold selectionOrder
  rw [h.length_eq]
  exact alike_selectFrom h rng _ _ _

/-! ### Reports on both -/

lemma alike_mark (h : Alike g g') (ok : Option Bool) : Option.Rel Alike (mark D ok g) (mark D ok g') := by
  have hcount : countFail D (g.get "_fails") = countFail D (g'.get "_fails") := by
    unfold countFail
    rw [h.fails]
  rcases ok with _ | _ | _
  · exact .some h
  · unfold mark
    dsimp only
    rw [hcount]
    refine rel_eq_bind _ fun fails => rel_eq_map _ fun n => ?_
    split
    · exact (h.set_fails fails).set_health _
    · exact h.set_fails fails
  · exact .some ((h.set_fails _).set_health _)

lemma alike_reportHealth (h : List.Forall₂ Alike gs gs') (report : HealthReport) :
    Option.Rel (List.Forall₂ Alike) (reportHealth D report gs) (reportHealth D report gs') := by
  induction h with
  | nil => exact .some .nil
  | cons hab hrest ih =>
    unfold reportHealth
    rw [hab.onion]
    split
    · exact rel_map (alike_mark hab report.ok) fun g g' hg => .cons hg hrest
    · exact rel_map ih fun gs gs' hgs => .cons hab hgs

lemma alike_afterReports (h : List.Forall₂ Alike gs gs') (reports : List HealthReport) :
    List.Forall₂ Alike (afterReports D gs reports) (afterReports D gs' reports) := by
  unfold afterReports
  induction reports generalizing gs gs' with
  | nil => exact h
  | cons report reports ih =>
    rw [List.foldl_cons, List.foldl_cons]
    refine ih ?_
    have hreport := alike_reportHealth (D := D) h report
    revert hreport
    generalize reportHealth D report gs = x
    generalize reportHealth D report gs' = x'
    intro hreport
    cases hreport with
    | none => exact h
    | some hnext => exact hnext

/-! ### Filters on both -/

variable {W : Announces}

lemma alike_filterReverified (h : List.Forall₂ Alike gs gs') :
    Option.Rel (List.Forall₂ Alike) (filterReverified W gs) (filterReverified W gs') := by
  induction h with
  | nil => exact .some .nil
  | @cons g g' gs gs' hab hrest ih =>
    have hverify : reverifyGateway W g = reverifyGateway W g' := by
      unfold reverifyGateway
      rw [hab.onion]
    unfold filterReverified
    rw [hab.operator, hverify]
    refine rel_eq_bind _ fun v => rel_map ih fun kept kept' hkept => ?_
    split
    · exact .cons hab hkept
    · exact hkept

lemma alike_filterByAdmission (h : List.Forall₂ Alike gs gs') (adm : Admission) :
    List.Forall₂ Alike (filterByAdmission adm gs) (filterByAdmission adm gs') := by
  unfold filterByAdmission
  split
  · refine alike_filter (fun g g' hg => ?_) h
    unfold admitted admitsOf
    rw [hg.caps]
  · exact h

lemma alike_filterByCapability (h : List.Forall₂ Alike gs gs') (req : Requirement) :
    List.Forall₂ Alike (filterByCapability req gs) (filterByCapability req gs') := by
  unfold filterByCapability
  split
  · refine alike_filter (fun g g' hg => ?_) h
    unfold gatewayMeetsRequirement
    rw [hg.caps]
  · exact h

lemma describeFleetAdmits_eq (h : List.Forall₂ Alike gs gs') : describeFleetAdmits gs = describeFleetAdmits gs' := by
  refine map_eq_of_forall₂ (fun g g' hg => ?_) h
  unfold admitsOf
  rw [hg.onion, hg.caps]

lemma selectVerified_eq (h : List.Forall₂ Alike gs gs') (options : ClientOptions) (rng : ℕ → F) :
    selectVerified D options rng gs = selectVerified D options rng gs' := by
  have hpassed := alike_filterByAdmission h options.adm
  have hcapable := alike_filterByCapability hpassed options.req
  unfold selectVerified
  simp only [alike_eq_nil hpassed, alike_eq_nil hcapable, describeFleetAdmits_eq h]
  have horder := alike_selectionOrder (D := D) hcapable rng
  revert horder
  generalize selectionOrder D rng (filterByCapability options.req (filterByAdmission options.adm gs)) = x
  generalize selectionOrder D rng (filterByCapability options.req (filterByAdmission options.adm gs')) = x'
  intro horder
  cases horder with
  | none => rfl
  | some hlist =>
    have hcandidates := map_eq_of_forall₂ (f := candidateOf) (fun g g' hg => by
      unfold candidateOf admitsOf
      rw [hg.onion, hg.caps]) hlist
    simp only [hcandidates]

lemma selectCandidates_eq (h : List.Forall₂ Alike gs gs') (options : ClientOptions) (rng : ℕ → F) :
    selectCandidates D W options rng gs = selectCandidates D W options rng gs' := by
  unfold selectCandidates
  split
  · have hkept := alike_filterReverified (W := W) h
    revert hkept
    generalize filterReverified W gs = x
    generalize filterReverified W gs' = x'
    intro hkept
    cases hkept with
    | none => rfl
    | some hlist => exact selectVerified_eq hlist options rng
  · exact selectVerified_eq h options rng

end Alike

/-! ### What the signature covers -/

section Covered

variable {S : Schemes} {pre : Bool} {dir dir' : Value} {pinnedSigner : PinnedSigner} {g g' : Value}
  {gateways gateways' : List Value}

/-- An accepted directory has bytes that are signed, and its entries are bound to their onions. -/
lemma bindings_of_accepted {signers : List String} (h : verifyDirectory S pre dir pinnedSigner = .accepted signers) :
    (∃ bytes, canonicalDirectoryBytes dir = some bytes) ∧ checkGatewayBindings S pre dir = .accepted () := by
  unfold verifyDirectory at h
  split at h
  · cases h
  split at h
  · have hthreshold : ∃ a, verifyDirectoryThreshold S pre dir pinnedSigner = .accepted a := by
      split at h
      · next a b hacc => exact ⟨_, hacc⟩
      · cases h
      · cases h
    obtain ⟨a, hacc⟩ := hthreshold
    unfold verifyDirectoryThreshold at hacc
    split at hacc
    · cases hacc
    dsimp only at hacc
    split at hacc
    · cases hacc
    split at hacc
    · cases hacc
    split at hacc
    · split at hacc
      · cases hacc
      split at hacc
      · cases hacc
      split at hacc
      · cases hacc
      next bytes hbytes =>
      split at hacc
      · cases hacc
      split at hacc
      · next hbind => exact ⟨⟨bytes, hbytes⟩, hbind⟩
      · cases hacc
      · cases hacc
    · cases hacc
  · split at h
    · cases h
    dsimp only at h
    split at h
    · cases h
    · cases h
    · cases h
    · cases h
    split at h
    · cases h
    split at h
    · cases h
    next bytes hbytes =>
    split at h
    · cases h
    split at h
    · cases h
    split at h
    · next hbind => exact ⟨⟨bytes, hbytes⟩, hbind⟩
    · cases h
    · cases h

lemma forall₂_of_mapM {α β : Type} {f : α → Option β} {l l' : List α} {r : List β} (h : l.mapM f = some r)
    (h' : l'.mapM f = some r) : List.Forall₂ (fun a a' => ∃ b, f a = some b ∧ f a' = some b) l l' := by
  induction l generalizing l' r with
  | nil =>
    obtain rfl := Option.some.inj h
    cases l' with
    | nil => exact .nil
    | cons a l' => simp [List.mapM_cons, Option.bind_eq_some_iff] at h'
  | cons a l ih =>
    simp only [List.mapM_cons, Option.bind_eq_bind, Option.bind_eq_some_iff, Option.pure_def, Option.some.injEq] at h
    obtain ⟨b, hb, bs, hbs, rfl⟩ := h
    cases l' with
    | nil => simp at h'
    | cons a' l' =>
      simp only [List.mapM_cons, Option.bind_eq_bind, Option.bind_eq_some_iff, Option.pure_def, Option.some.injEq,
        List.cons.injEq] at h'
      obtain ⟨b', hb', bs', hbs', rfl, rfl⟩ := h'
      exact .cons ⟨b', hb, hb'⟩ (ih hbs hbs')

/-- Directories with the same bytes are signed entry by entry. -/
lemma signed_entries (h : canonicalDirectoryBytes dir' = canonicalDirectoryBytes dir)
    (hsome : ∃ bytes, canonicalDirectoryBytes dir = some bytes) (hlist : gatewaysOf dir = some gateways)
    (hlist' : gatewaysOf dir' = some gateways') :
    List.Forall₂ (fun g g' => ∃ e, signedEntry g = some e ∧ signedEntry g' = some e) gateways gateways' := by
  have hpayload : ∀ {d : Value} {gs : List Value} {bytes : List Char}, gatewaysOf d = some gs →
      canonicalDirectoryBytes d = some bytes → ∃ entries payload, gs.mapM signedEntry = some entries ∧
        Json.write Decimal.text payload = bytes ∧ payload.get "gateways" = some (.arr entries) := by
    intro d gs bytes hgs hbytes
    unfold canonicalDirectoryBytes signedPayload at hbytes
    simp only [hgs, Option.bind_eq_bind, Option.bind_some, Option.map_eq_some_iff, Option.bind_eq_some_iff,
      Option.pure_def, Option.some.injEq] at hbytes
    obtain ⟨payload, ⟨entries, hentries, rfl⟩, hwrite⟩ := hbytes
    refine ⟨entries, _, hentries, hwrite, ?_⟩
    rw [Json.get_append, Json.get_cons, Json.get_nil, if_pos rfl]
    rfl
  obtain ⟨bytes, hbytes⟩ := hsome
  obtain ⟨entries, payload, hmap, hwrite, hget⟩ := hpayload hlist hbytes
  obtain ⟨entries', payload', hmap', hwrite', hget'⟩ := hpayload hlist' (h.trans hbytes)
  obtain rfl : payload = payload' := Json.write_inj Decimal.numberText (hwrite.trans hwrite'.symm)
  obtain rfl : entries = entries' := Json.arr.inj (Option.some.inj (hget.symm.trans hget'))
  exact forall₂_of_mapM hmap hmap'

/-- Entries agree in what the signature leaves out and selection reads, and their weights are finite. -/
structure UnsignedAgree (g g' : Value) : Prop where
  operator : claimsStake g = claimsStake g'
  fails : (g.get "_fails").filter Value.truthy = (g'.get "_fails").filter Value.truthy
  finite : ∀ w, g.get "weight" = some w ∨ g'.get "weight" = some w → Value.wire w = w

lemma isDown_iff : isDown g = true ↔ g.get "health" = some (.str "down") := by
  unfold isDown
  split
  · next health hhealth =>
    rw [hhealth]
    simp
  · next hother =>
    constructor
    · intro h
      cases h
    · intro h
      exact absurd h (hother "down")

lemma alike_of_signed {e : Json Decimal} (h : signedEntry g = some e) (h' : signedEntry g' = some e)
    (honion : ∃ onion, g.get "onion" = some (.str onion)) (hunsigned : UnsignedAgree g g') : Alike g g' := by
  have hfield : ∀ key ∈ ["onion", "pubkey", "weight", "health"],
      (g.get key).map (Json.bind Value.clean) = (g'.get key).map (Json.bind Value.clean) := fun key hkey =>
    ((get_signedEntry h).1 key hkey).symm.trans ((get_signedEntry h').1 key hkey)
  have hstr : ∀ key ∈ ["onion", "pubkey", "weight", "health"], ∀ s : String,
      g.get key = some (.str s) ↔ g'.get key = some (.str s) := by
    have hclean : ∀ (v : Option Value) (s : String), v.map (Json.bind Value.clean) = some (.str s) ↔ v = some (.str s) := by
      intro v s
      cases v with
      | none => simp
      | some v => simp only [Option.map_some, Option.some.injEq, bind_clean_eq_str]
    intro key hkey s
    rw [← hclean, hfield key hkey, hclean]
  have hobj : ∀ {v : Value}, (∃ onion, v.get "onion" = some (.str onion)) → ∃ fields, v = .obj fields := by
    rintro v ⟨onion, hv⟩
    cases v with
    | obj fields => exact ⟨fields, rfl⟩
    | _ => cases hv
  obtain ⟨onion, hg⟩ := honion
  have hg' := (hstr "onion" (by decide) onion).mp hg
  refine ⟨⟨hobj ⟨onion, hg⟩, hobj ⟨onion, hg'⟩⟩, ?_, ?_, ?_, canonicalCaps_eq_of_signed h h', hunsigned.operator,
    hunsigned.fails⟩
  · unfold entryOnion
    rw [hg, hg']
  · rw [Bool.eq_iff_iff, isDown_iff, isDown_iff]
    exact hstr "health" (by decide) "down"
  · -- finite values that are written alike are the same
    have hweight := hfield "weight" (by decide)
    cases hw : g.get "weight" with
    | none =>
      rw [hw] at hweight
      cases hw' : g'.get "weight" with
      | none => rfl
      | some w' =>
        rw [hw'] at hweight
        cases hweight
    | some w =>
      cases hw' : g'.get "weight" with
      | none =>
        rw [hw, hw'] at hweight
        cases hweight
      | some w' =>
        rw [hw, hw'] at hweight
        have hwire : Value.wire w = Value.wire w' :=
          congrArg (Json.bind fun d : Decimal => Json.num (Number.fin d)) (Option.some.inj hweight)
        rw [← hunsigned.finite w (.inl hw), ← hunsigned.finite w' (.inr hw'), hwire]

/-! ### What selection shows -/

variable {F : Type} (D : Doubles F) (W : Announces)

/-- What passes each filter, the weights, the marks, the order and the candidates. -/
structure Observation (F : Type) where
  reverified : Option (List (Option String))
  admitted : List (Option String)
  capable : List (Option String)
  weights : List (Option F)
  marks : List (Bool × Option Value)
  order : Option (List (Option String))
  selected : Selection

def observe (options : ClientOptions) (rng : ℕ → F) (gateways : List Value) : Observation F where
  reverified := (filterReverified W gateways).map (List.map entryOnion)
  admitted := (filterByAdmission options.adm gateways).map entryOnion
  capable := (filterByCapability options.req gateways).map entryOnion
  weights := gateways.map (clampWeight D)
  marks := gateways.map fun g => (isDown g, (g.get "_fails").filter Value.truthy)
  order := (selectionOrder D rng gateways).map (List.map entryOnion)
  selected := selectCandidates D W options rng gateways

variable {D W}

lemma map_onion_eq {l l' : Option (List Value)} (h : Option.Rel (List.Forall₂ Alike) l l') :
    l.map (List.map entryOnion) = l'.map (List.map entryOnion) := by
  cases h with
  | none => rfl
  | some hlist => exact congrArg some (map_eq_of_forall₂ (fun _ _ hg => hg.onion) hlist)

lemma observe_eq (h : List.Forall₂ Alike gateways gateways') (options : ClientOptions) (rng : ℕ → F) :
    observe D W options rng gateways = observe D W options rng gateways' := by
  have honion : ∀ {l l'}, List.Forall₂ Alike l l' → l.map entryOnion = l'.map entryOnion :=
    map_eq_of_forall₂ fun _ _ hg => hg.onion
  have hweights : gateways.map (clampWeight D) = gateways'.map (clampWeight D) :=
    map_eq_of_forall₂ (fun _ _ hg => hg.clampWeight) h
  have hmarks : gateways.map (fun g => (isDown g, (g.get "_fails").filter Value.truthy)) =
      gateways'.map fun g => (isDown g, (g.get "_fails").filter Value.truthy) :=
    map_eq_of_forall₂ (fun g g' hg => by rw [hg.down, hg.fails]) h
  unfold observe
  rw [map_onion_eq (alike_filterReverified h), honion (alike_filterByAdmission h options.adm),
    honion (alike_filterByCapability h options.req), hweights, hmarks, map_onion_eq (alike_selectionOrder h rng),
    selectCandidates_eq h options rng]

end Covered

/-! ### A directory with one gateway -/

/-- Doubles without their rounding; the absent one is not finite. -/
def exactDoubles : Doubles (Option ℚ) where
  ofNat n := some n
  ofNumber
    | .fin d => some d.value
    | .inf _ => none
  ofText _ := none
  nan := none
  isFinite x := x.isSome
  add x y := x.bind fun a => y.map fun b => a + b
  sub x y := x.bind fun a => y.map fun b => a - b
  mul x y := x.bind fun a => y.map fun b => a * b
  min x y := x.bind fun a => y.map fun b => min a b
  max x y := x.bind fun a => y.map fun b => max a b
  lt x y := (x.bind fun a => y.map fun b => decide (a < b)).getD false
  le x y := (x.bind fun a => y.map fun b => decide (a ≤ b)).getD false
  index x := (x.getD 0).floor.toNat
  succ
    | .fin d => .fin ((d.toInt?.map fun n => .ofInt (n + 1)).getD d)
    | n => n

/-- The key whose seed is all zeros. -/
def zeroSigner : String := "3b6a27bcceb6a42d62a3a8d02a6f0d73653215771de243a63ac048a18b59da29"

/-- The signature of that key over a directory with the gateway whose key is all zeros. -/
def zeroSignature : String :=
  "949ada0cd85f9b0065e39ec4d5388aeb76643c123f9c75bd7bfe9e4b47bd9226" ++
    "162798557853d56c4d9e57139f133a9c45843d0ff7d01478224b874f6724ee02"

/-- That directory, with more fields in its entry. -/
def zeroDirectory (fields : List (String × Value)) : Value :=
  .obj [("version", .num (.fin (.ofInt 1))), ("issued", .num (.fin (.ofInt 0))), ("gateways", .arr [.obj ([
    ("onion", .str "aaaaaaaaaaaaaaaaaaaaaaaaaaaaaaaaaaaaaaaaaaaaaaaaaaam2dqd.onion"),
    ("pubkey", .str "0000000000000000000000000000000000000000000000000000000000000000"),
    ("weight", .num (.fin (.ofInt 100))), ("health", .str "up")] ++ fields)]), ("signer", .str zeroSigner),
    ("signature", .str zeroSignature)]

/-- Its checksum, and the one signature. -/
def zeroSchemes : Schemes where
  checksum _ := [205, 14]
  ed25519Verify bytes signature key := key = zeroSigner &&
    match signature with
    | .str sig => sig = zeroSignature && bytes = (canonicalDirectoryBytes (zeroDirectory [])).getD []
    | _ => false

lemma zeroDirectory_accepted :
    verifyDirectory zeroSchemes false (zeroDirectory []) (.one zeroSigner) = .accepted [zeroSigner] := by
  decide +kernel

end ShadeTree.Directory
