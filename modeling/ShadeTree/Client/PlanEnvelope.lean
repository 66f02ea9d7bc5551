import ShadeTree.Directory.Caps
import ShadeTree.Lib.OrderedMap

/-!
# The wire profile of one tunnel (`_knownGatewayCaps`, `_planEnvelope` and `_gateRefusalError` in
# `client/shade-tree-client.mjs`)

A tunnel makes one proof, for one protocol version and one artifact, and shows it to one gateway after the other.  What
a gateway takes is known from what it refused before, from its signed entry, or from the options when there is one
candidate; of a gateway that is not known everything is tried.

Left out are the ways to the candidates: what is read of a candidate is its address and its capabilities.
-/

namespace ShadeTree.Client

open ShadeTree.Lib
open ShadeTree.Directory (ARTIFACT_ID_RE MAX_SAFE_INTEGER sortedSet)
open ShadeTree.Bootnode (dropOnion)

/-! ### What is known of a gateway -/

/-- A range of versions as `protoRange` returns it. -/
structure ProtoRange where
  min : ℤ
  max : ℤ
  nonneg : 0 ≤ min
  ordered : min ≤ max

def ProtoRange.Contains (range : ProtoRange) (version : ℤ) : Prop := range.min ≤ version ∧ version ≤ range.max

def MAX_LEARNED_GATEWAY_ARTIFACTS : ℕ := 8

/-- A list of artifacts as `artifactIds` returns it. -/
structure ArtifactIds where
  ids : List String
  nonempty : ids ≠ []
  valid : ∀ id ∈ ids, ARTIFACT_ID_RE id = true
  bounded : ids.length ≤ MAX_LEARNED_GATEWAY_ARTIFACTS

/-- The integer that a value is, when `Number.isSafeInteger` holds of it. -/
def safeInteger (v : Option Value) : Option ℤ :=
  (v.bind Value.asInteger).filter fun n => -MAX_SAFE_INTEGER ≤ n ∧ n ≤ MAX_SAFE_INTEGER

def protoRange (value : Option Value) : Option ProtoRange := do
  let min ← safeInteger (value.bind (Json.get "min"))
  let max ← safeInteger (value.bind (Json.get "max"))
  if h : 0 ≤ min ∧ min ≤ max then some ⟨min, max, h.1, h.2⟩ else none

def artifactIds (value : Option Value) : Option ArtifactIds := do
  let items ← value.bind Value.asArray
  let ids := ((items.filterMap Value.asString).filter ARTIFACT_ID_RE).eraseDups
  if h : ids ≠ [] ∧ ids.length ≤ MAX_LEARNED_GATEWAY_ARTIFACTS then
    some ⟨ids, h.1, fun _ hid => (List.mem_filter.mp (List.mem_eraseDups.mp hid)).2, h.2⟩
  else none

/-- What a gateway is known to take; `none` is `null`. -/
structure GatewayCaps where
  proto : Option ProtoRange
  artifacts : Option ArtifactIds

def GatewayCaps.unknown : GatewayCaps := ⟨none, none⟩

structure Candidate where
  onion : List Char
  proto : Option Value
  artifacts : Option Value

/-- What the client holds for planning. -/
structure Planner where
  /-- `this.onion`, a pinned gateway. -/
  onion : Option (List Char)
  /-- `CLIENT_PROTO_RANGE`. -/
  clientRange : ProtoRange
  /-- `this.artifacts`. -/
  artifacts : Option (List String)
  /-- `clientArtifactIds()`. -/
  clientArtifactIds : List String
  gatewayRange : Option Value
  gatewayArtifacts : Option Value
  gatewayCapsByOnion : OrderedMap (List Char) GatewayCaps

namespace Planner

variable (C : Planner)

def knownGatewayCaps (cand : Candidate) (candidateCount : ℕ) : GatewayCaps :=
  let onion := dropOnion cand.onion
  let learned := (C.gatewayCapsByOnion.get onion).getD .unknown
  let singular := candidateCount = 1
  { proto := learned.proto <|> protoRange cand.proto <|> (if singular then protoRange C.gatewayRange else none)
    artifacts := learned.artifacts <|> artifactIds cand.artifacts <|>
      (if singular then artifactIds C.gatewayArtifacts else none) }

end Planner

/-! ### The choice -/

/-- The highest version on both sides, or why there is none. -/
def selectProtoVersion (gatewayRange : Option ProtoRange) (clientRange : ProtoRange) : Except String ℤ :=
  match gatewayRange with
  | none => .ok clientRange.max
  | some gatewayRange =>
    let hi := min clientRange.max gatewayRange.max
    let lo := max clientRange.min gatewayRange.min
    if hi < lo then
      .error ("no-mutual-version:client=" ++ toString clientRange.min ++ "-" ++ toString clientRange.max ++
        ",gateway=" ++ toString gatewayRange.min ++ "-" ++ toString gatewayRange.max)
    else .ok hi

/-- The newest artifact of the client on both sides, or why there is none. -/
def selectArtifact (gatewayIds : Option (List String)) (clientIds : List String) : Except String String :=
  let mine := clientIds.filter ARTIFACT_ID_RE
  match mine.head? with
  | none => .error "no-client-artifact"
  | some newest =>
    if gatewayIds.getD [] = [] then .ok newest
    else
      let theirs := (gatewayIds.getD []).filter ARTIFACT_ID_RE
      match mine.find? fun id => theirs.contains id with
      | some id => .ok id
      | none => .error ("no-mutual-artifact:client=" ++ "|".intercalate mine ++ ",gateway=" ++
          "|".intercalate (sortedSet theirs))

inductive Stage where
  | version | artifact
  deriving DecidableEq, Repr

structure Unplanned where
  stage : Stage
  reason : Option String

structure Plan where
  version : ℤ
  artifact : String
  cands : List Candidate

/-- `reason` of a choice that is not `ok`. -/
def reasonOf {α : Type} : Except String α → Option String
  | .ok _ => none
  | .error reason => some reason

/-- A candidate with the choices for it. -/
structure Evaluated where
  cand : Candidate
  caps : GatewayCaps
  pv : Except String ℤ
  pa : Except String String

/-- The version and the artifact of a candidate for which both are chosen. -/
def Evaluated.profile (e : Evaluated) : Option (ℤ × String) :=
  match e.pv, e.pa with
  | .ok version, .ok artifact => some (version, artifact)
  | _, _ => none

/-- A candidate that is not known to refuse the profile. -/
def GatewayCaps.eligible (caps : GatewayCaps) (version : ℤ) (artifact : String) : Bool :=
  let protoOk := caps.proto.all fun range => range.min ≤ version && version ≤ range.max
  let artifactOk := caps.artifacts.all fun artifacts => artifacts.ids.contains artifact
  protoOk && artifactOk

namespace Planner

variable (C : Planner)

def mine : List String := C.artifacts.getD C.clientArtifactIds

def evaluate (candidateCount : ℕ) (cand : Candidate) : Evaluated :=
  let caps := C.knownGatewayCaps cand candidateCount
  ⟨cand, caps, selectProtoVersion caps.proto C.clientRange, selectArtifact (caps.artifacts.map ArtifactIds.ids) C.mine⟩

def planEnvelope (cands : List Candidate) : Except Unplanned Plan :=
  let evaluated := cands.map (C.evaluate cands.length)
  match evaluated.findSome? Evaluated.profile with
  | none =>
    match evaluated.filter fun e => e.pv.toOption.isSome with
    | [] => .error ⟨.version, (evaluated.head?.bind fun e => reasonOf e.pv) <|> some "no candidate"⟩
    | e :: _ => .error ⟨.artifact, reasonOf e.pa⟩
  | some (version, artifact) =>
    .ok ⟨version, artifact, (evaluated.filter fun e => e.caps.eligible version artifact).map Evaluated.cand⟩

end Planner

/-! ### What a refusal teaches -/

/-- The capability that an acknowledgement tells, when its reason is about it. -/
inductive CapabilityRefusal where
  | proto (range : ProtoRange)
  | artifacts (artifacts : ArtifactIds)

/-- `ack.err` when it is a string, else the empty string. -/
def ackReason (ack : Option Value) : String := ((ack.bind (Json.get "err")).bind Value.asString).getD ""

/-- `reason` starts with one of the texts. -/
def startsWithAny (starts : List String) (reason : String) : Bool :=
  starts.any fun start => start.toList.isPrefixOf reason.toList

def capabilityRefusal (ack : Option Value) : Option CapabilityRefusal :=
  let reason := ackReason ack
  let proto := (protoRange (ack.bind (Json.get "proto"))).filter fun _ =>
    startsWithAny ["unsupported-version", "bad-version"] reason
  let artifacts := (artifactIds (ack.bind (Json.get "artifacts"))).filter fun _ =>
    startsWithAny ["gate:artifact-unknown", "gate:artifact-retired", "gate:bad-artifact"] reason
  proto.map .proto <|> artifacts.map .artifacts

/-- `{ ...previous, ...learned }`. -/
def GatewayCaps.merge (previous : GatewayCaps) : CapabilityRefusal → GatewayCaps
  | .proto range => { previous with proto := some range }
  | .artifacts artifacts => { previous with artifacts := some artifacts }

def ProtoRange.value (range : ProtoRange) : Value :=
  .obj [("min", .num (.fin (.ofInt range.min))), ("max", .num (.fin (.ofInt range.max)))]

def ArtifactIds.value (artifacts : ArtifactIds) : Value := .arr (artifacts.ids.map .str)

/-- The error of a refusal. -/
structure GateRefused where
  message : String
  gatewayCapabilityMismatch : Bool

namespace Planner

variable (C : Planner)

/-- What the client keeps of a refusal, under the address of the gateway that sent it. -/
def learn (onion : List Char) (learned : CapabilityRefusal) : Planner :=
  let candidate := dropOnion onion
  if candidate = [] then C
  else
    let previous := (C.gatewayCapsByOnion.get candidate).getD .unknown
    let C' := { C with gatewayCapsByOnion := C.gatewayCapsByOnion.set candidate (previous.merge learned) }
    if C.onion = some candidate then
      match learned with
      | .proto range => { C' with gatewayRange := some range.value }
      | .artifacts artifacts => { C' with gatewayArtifacts := some artifacts.value }
    else C'

def gateRefusalError (ack : Option Value) (onion : List Char) : Planner × GateRefused :=
  match capabilityRefusal ack with
  | none =>
    let err := ackReason ack
    (C, ⟨"gate refused: " ++ (if err = "" then "unspecified refusal" else err), false⟩)
  | some (.proto range) =>
    let again := match selectProtoVersion (some range) C.clientRange with
      | .ok version => "retry as v" ++ toString version
      | .error reason => reason
    (C.learn onion (.proto range), ⟨"gate refused: " ++ ackReason ack ++ " (gateway speaks " ++ toString range.min ++ "-" ++
      toString range.max ++ "; " ++ again ++ ")", true⟩)
  | some (.artifacts artifacts) =>
    let again := match selectArtifact (some artifacts.ids) C.mine with
      | .ok id => "retry with " ++ id
      | .error reason => reason
    (C.learn onion (.artifacts artifacts), ⟨"gate refused: " ++ ackReason ack ++ " (gateway accepts artifacts " ++
      ",".intercalate artifacts.ids ++ "; " ++ again ++ ")", true⟩)

end Planner

/-! ### The choice is right -/

/-- The gateway takes the profile, as far as it is known. -/
structure Supports (caps : GatewayCaps) (version : ℤ) (artifact : String) : Prop where
  proto : ∀ range ∈ caps.proto, range.Contains version
  artifacts : ∀ artifacts ∈ caps.artifacts, artifact ∈ artifacts.ids

lemma eligible_iff {caps : GatewayCaps} {version : ℤ} {artifact : String} :
    caps.eligible version artifact = true ↔ Supports caps version artifact := by
  unfold GatewayCaps.eligible
  simp only [Bool.and_eq_true, Option.all_eq_true, decide_eq_true_eq, List.contains_iff_mem]
  exact ⟨fun h => ⟨h.1, h.2⟩, fun h => ⟨h.proto, h.artifacts⟩⟩

/-- The version chosen is on both sides. -/
lemma selectProtoVersion_ok {gatewayRange : Option ProtoRange} {clientRange : ProtoRange} {version : ℤ}
    (h : selectProtoVersion gatewayRange clientRange = .ok version) :
    clientRange.Contains version ∧ ∀ range ∈ gatewayRange, range.Contains version := by
  have hc := clientRange.ordered
  cases gatewayRange with
  | none =>
    obtain rfl := Except.ok.inj h
    exact ⟨⟨hc, le_rfl⟩, nofun⟩
  | some range =>
    have hg := range.ordered
    unfold selectProtoVersion at h
    dsimp only at h
    split at h
    · cases h
    next hlt =>
    obtain rfl := Except.ok.inj h
    refine ⟨⟨by omega, by omega⟩, fun r hr => ?_⟩
    obtain rfl := Option.some.inj hr
    exact ⟨by omega, by omega⟩

/-- A version on both sides is enough for a choice. -/
lemma selectProtoVersion_of_mutual {gatewayRange : Option ProtoRange} {clientRange : ProtoRange} {version : ℤ}
    (hc : clientRange.Contains version) (hg : ∀ range ∈ gatewayRange, range.Contains version) :
    ∃ v, selectProtoVersion gatewayRange clientRange = .ok v := by
  cases gatewayRange with
  | none => exact ⟨_, rfl⟩
  | some range =>
    obtain ⟨hgmin, hgmax⟩ := hg range rfl
    obtain ⟨hcmin, hcmax⟩ := hc
    have hle : ¬ min clientRange.max range.max < max clientRange.min range.min := by omega
    exact ⟨_, if_neg hle⟩

/-- The artifact chosen is one of the client's and, of a gateway that is known, one of the gateway's. -/
lemma selectArtifact_ok {artifacts : Option ArtifactIds} {clientIds : List String} {id : String}
    (h : selectArtifact (artifacts.map ArtifactIds.ids) clientIds = .ok id) :
    (id ∈ clientIds ∧ ARTIFACT_ID_RE id = true) ∧ ∀ theirs ∈ artifacts, id ∈ theirs.ids := by
  unfold selectArtifact at h
  dsimp only at h
  split at h
  · cases h
  next newest hnewest =>
  cases artifacts with
  | none =>
    obtain rfl := Except.ok.inj h
    exact ⟨List.mem_filter.mp (List.mem_of_head? hnewest), nofun⟩
  | some theirs =>
    rw [if_neg (show ¬ ((some theirs).map ArtifactIds.ids).getD [] = [] from theirs.nonempty)] at h
    split at h
    · next id' hfind =>
      obtain rfl := Except.ok.inj h
      have hin := List.find?_some hfind
      have hmem := (List.mem_filter.mp (List.contains_iff_mem.mp hin)).1
      refine ⟨List.mem_filter.mp (List.mem_of_find?_eq_some hfind), fun ids hids => ?_⟩
      obtain rfl := Option.some.inj hids
      exact hmem
    · cases h

/-- An artifact on both sides is enough for a choice. -/
lemma selectArtifact_of_mutual {artifacts : Option ArtifactIds} {clientIds : List String} {id : String}
    (hmine : id ∈ clientIds) (hvalid : ARTIFACT_ID_RE id = true) (htheirs : ∀ theirs ∈ artifacts, id ∈ theirs.ids) :
    ∃ id', selectArtifact (artifacts.map ArtifactIds.ids) clientIds = .ok id' := by
  have hmem : id ∈ clientIds.filter ARTIFACT_ID_RE := List.mem_filter.mpr ⟨hmine, hvalid⟩
  unfold selectArtifact
  dsimp only
  split
  · next hnil => exact absurd (List.head?_eq_none_iff.mp hnil ▸ hmem) List.not_mem_nil
  cases artifacts with
  | none => exact ⟨_, rfl⟩
  | some theirs =>
    rw [if_neg (show ¬ ((some theirs).map ArtifactIds.ids).getD [] = [] from theirs.nonempty)]
    split
    · exact ⟨_, rfl⟩
    · next hnone =>
      have htheir : id ∈ theirs.ids.filter ARTIFACT_ID_RE := List.mem_filter.mpr ⟨htheirs theirs rfl, hvalid⟩
      exact absurd (List.contains_iff_mem.mpr htheir) (List.find?_eq_none.mp hnone id hmem)

namespace Planner

variable {C : Planner}

/-- A version that the client speaks with an artifact that it can prove with. -/
structure Available (C : Planner) (version : ℤ) (artifact : String) : Prop where
  spoken : C.clientRange.Contains version
  provable : artifact ∈ C.mine
  valid : ARTIFACT_ID_RE artifact = true

/-- Some profile of the client suits the candidate, as far as it is known among so many. -/
def Compatible (C : Planner) (candidateCount : ℕ) (cand : Candidate) : Prop :=
  ∃ version artifact, C.Available version artifact ∧ Supports (C.knownGatewayCaps cand candidateCount) version artifact

lemma evaluate_profile {n : ℕ} {cand : Candidate} {version : ℤ} {artifact : String}
    (h : (C.evaluate n cand).profile = some (version, artifact)) :
    C.Available version artifact ∧ Supports (C.knownGatewayCaps cand n) version artifact := by
  unfold Evaluated.profile evaluate at h
  dsimp only at h
  split at h
  · next v a hpv hpa =>
    obtain ⟨rfl, rfl⟩ := Prod.mk.inj (Option.some.inj h)
    obtain ⟨hversion, hproto⟩ := selectProtoVersion_ok hpv
    obtain ⟨⟨hmine, hvalid⟩, hartifacts⟩ := selectArtifact_ok hpa
    exact ⟨⟨hversion, hmine, hvalid⟩, ⟨hproto, hartifacts⟩⟩
  · cases h

lemma evaluate_profile_isSome {n : ℕ} {cand : Candidate} :
    (∃ profile, (C.evaluate n cand).profile = some profile) ↔ C.Compatible n cand := by
  constructor
  · rintro ⟨⟨version, artifact⟩, h⟩
    exact ⟨version, artifact, evaluate_profile h⟩
  · rintro ⟨version, artifact, hav, hsup⟩
    obtain ⟨v, hpv⟩ := selectProtoVersion_of_mutual hav.spoken hsup.proto
    obtain ⟨a, hpa⟩ := selectArtifact_of_mutual hav.provable hav.valid hsup.artifacts
    unfold Evaluated.profile evaluate
    dsimp only
    rw [hpv, hpa]
    exact ⟨_, rfl⟩

/-- The profile comes from the first candidate that some profile of the client suits. -/
lemma findSome?_profile {n : ℕ} {cands : List Candidate} {version : ℤ} {artifact : String}
    (h : (cands.map (C.evaluate n)).findSome? Evaluated.profile = some (version, artifact)) :
    ∃ before chosen after, cands = before ++ chosen :: after ∧ (∀ cand ∈ before, ¬ C.Compatible n cand) ∧
      (C.evaluate n chosen).profile = some (version, artifact) := by
  rw [List.findSome?_map] at h
  obtain ⟨before, chosen, after, hcands, hchosen, hbefore⟩ := List.findSome?_eq_some_iff.mp h
  refine ⟨before, chosen, after, hcands, fun cand hcand hcompatible => ?_, hchosen⟩
  obtain ⟨profile, hprofile⟩ := evaluate_profile_isSome.mpr hcompatible
  exact absurd ((hbefore cand hcand).symm.trans hprofile) (by simp)

/-- The attempts are the candidates that are not known to refuse the profile. -/
lemma attempts_eq (n : ℕ) (cands : List Candidate) (version : ℤ) (artifact : String) :
    ((cands.map (C.evaluate n)).filter fun e => e.caps.eligible version artifact).map Evaluated.cand =
      cands.filter fun cand => (C.knownGatewayCaps cand n).eligible version artifact := by
  rw [List.filter_map, List.map_map]
  exact List.map_id _

lemma planEnvelope_ok_iff {cands : List Candidate} {plan : Plan} :
    C.planEnvelope cands = .ok plan ↔
      (cands.map (C.evaluate cands.length)).findSome? Evaluated.profile = some (plan.version, plan.artifact) ∧
        plan.cands = cands.filter fun cand =>
          (C.knownGatewayCaps cand cands.length).eligible plan.version plan.artifact := by
  unfold planEnvelope
  dsimp only
  cases hfind : (cands.map (C.evaluate cands.length)).findSome? Evaluated.profile with
  | none =>
    refine ⟨fun h => ?_, fun h => nomatch h.1⟩
    dsimp only at h
    split at h <;> cases h
  | some profile =>
    obtain ⟨version, artifact⟩ := profile
    dsimp only
    rw [attempts_eq]
    constructor
    · rintro h
      obtain rfl := Except.ok.inj h
      exact ⟨rfl, rfl⟩
    · rintro ⟨hprofile, hcands⟩
      obtain ⟨rfl, rfl⟩ := Prod.mk.inj (Option.some.inj hprofile)
      rw [← hcands]

/-- **Envelope planning.** A plan is made exactly when some profile of the client suits some candidate.  Its attempts are
candidates in their order, the chosen one among them, which is the first that can be served, and everyone of whom
something is known takes the profile. -/
theorem planEnvelope_spec (C : Planner) (cands : List Candidate) :
    ((∃ plan, C.planEnvelope cands = .ok plan) ↔ ∃ cand ∈ cands, C.Compatible cands.length cand) ∧
      ∀ plan, C.planEnvelope cands = .ok plan →
        C.Available plan.version plan.artifact ∧ plan.cands.Sublist cands ∧
          (∃ before chosen after, cands = before ++ chosen :: after ∧ chosen ∈ plan.cands ∧
            C.Compatible cands.length chosen ∧ ∀ cand ∈ before, ¬ C.Compatible cands.length cand) ∧
          ∀ cand ∈ plan.cands, Supports (C.knownGatewayCaps cand cands.length) plan.version plan.artifact := by
  have hsome : (∃ profile, (cands.map (C.evaluate cands.length)).findSome? Evaluated.profile = some profile) ↔
      ∃ cand ∈ cands, C.Compatible cands.length cand := by
    rw [← Option.isSome_iff_exists, List.findSome?_isSome_iff]
    simp only [List.mem_map, Option.isSome_iff_exists, exists_exists_and_eq_and, evaluate_profile_isSome]
  refine ⟨?_, fun plan hplan => ?_⟩
  · rw [← hsome]
    constructor
    · rintro ⟨plan, hplan⟩
      exact ⟨_, (planEnvelope_ok_iff.mp hplan).1⟩
    · rintro ⟨⟨version, artifact⟩, hprofile⟩
      let attempts := cands.filter fun cand => (C.knownGatewayCaps cand cands.length).eligible version artifact
      exact ⟨⟨version, artifact, attempts⟩, planEnvelope_ok_iff.mpr ⟨hprofile, rfl⟩⟩
  · obtain ⟨hprofile, hcands⟩ := planEnvelope_ok_iff.mp hplan
    obtain ⟨before, chosen, after, hsplit, hbefore, hchosen⟩ := findSome?_profile hprofile
    obtain ⟨hav, hsup⟩ := evaluate_profile hchosen
    have hmem : chosen ∈ cands := by
      rw [hsplit]
      exact List.mem_append_right _ List.mem_cons_self
    refine ⟨hav, hcands ▸ List.filter_sublist, ⟨before, chosen, after, hsplit, ?_, ?_, hbefore⟩, fun cand hcand => ?_⟩
    · rw [hcands]
      exact List.mem_filter.mpr ⟨hmem, eligible_iff.mpr hsup⟩
    · exact ⟨_, _, hav, hsup⟩
    · rw [hcands] at hcand
      exact eligible_iff.mp (List.mem_filter.mp hcand).2

/-- A refusal to plan has a reason. -/
lemma planEnvelope_error {cands : List Candidate} {refused : Unplanned} (h : C.planEnvelope cands = .error refused) :
    refused.reason.isSome = true := by
  unfold planEnvelope at h
  dsimp only at h
  split at h
  swap
  · cases h
  next hnone =>
  split at h
  · obtain rfl := Except.error.inj h
    simp
  · next e rest hversion =>
    obtain rfl := Except.error.inj h
    have hmem := List.mem_filter.mp (hversion ▸ List.mem_cons_self : e ∈ _)
    have hprofile := List.findSome?_eq_none_iff.mp hnone e hmem.1
    unfold Evaluated.profile at hprofile
    cases hpv : e.pv with
    | error reason => simp [hpv, Except.toOption] at hmem
    | ok version =>
      cases hpa : e.pa with
      | error reason => rfl
      | ok artifact => simp [hpv, hpa] at hprofile

/-! ### What was refused is not tried again -/

lemma learn_map {onion : List Char} {learned : CapabilityRefusal} (h : dropOnion onion ≠ []) :
    (C.learn onion learned).gatewayCapsByOnion = C.gatewayCapsByOnion.set (dropOnion onion)
      (((C.gatewayCapsByOnion.get (dropOnion onion)).getD .unknown).merge learned) := by
  unfold learn
  dsimp only
  rw [if_neg h]
  split
  · cases learned <;> rfl
  · rfl

/-- The gateway takes the profile, if it is about what the gateway told. -/
def CapabilityRefusal.Allows (version : ℤ) (artifact : String) : CapabilityRefusal → Prop
  | .proto range => range.Contains version
  | .artifacts artifacts => artifact ∈ artifacts.ids

/-- After a refusal that tells a capability, every plan that tries the gateway again heeds it. -/
theorem gateRefusalError_heeded {ack : Option Value} {learned : CapabilityRefusal} {onion : List Char}
    {cands : List Candidate} {plan : Plan} {cand : Candidate} (hlearned : capabilityRefusal ack = some learned)
    (honion : dropOnion onion ≠ []) (hplan : (C.gateRefusalError ack onion).1.planEnvelope cands = .ok plan)
    (hcand : cand ∈ plan.cands) (hsame : dropOnion cand.onion = dropOnion onion) :
    CapabilityRefusal.Allows plan.version plan.artifact learned := by
  have hclient : (C.gateRefusalError ack onion).1 = C.learn onion learned := by
    unfold gateRefusalError
    rw [hlearned]
    cases learned <;> rfl
  rw [hclient] at hplan
  obtain ⟨-, hcands⟩ := planEnvelope_ok_iff.mp hplan
  rw [hcands] at hcand
  have hsup := eligible_iff.mp (List.mem_filter.mp hcand).2
  have hget : (C.learn onion learned).gatewayCapsByOnion.get (dropOnion cand.onion) =
      some (((C.gatewayCapsByOnion.get (dropOnion onion)).getD .unknown).merge learned) := by
    rw [learn_map honion, hsame]
    exact OrderedMap.get_set_self
  cases learned with
  | proto range =>
    refine hsup.proto range ?_
    unfold knownGatewayCaps
    simp [hget, GatewayCaps.merge]
  | artifacts artifacts =>
    refine hsup.artifacts artifacts ?_
    unfold knownGatewayCaps
    simp [hget, GatewayCaps.merge]

end Planner

end ShadeTree.Client
