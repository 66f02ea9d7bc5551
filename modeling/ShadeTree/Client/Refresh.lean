import Mathlib.Data.Rat.Defs
import Mathlib.Algebra.Order.Ring.Rat
import ShadeTree.Lib.Run

/-!
# Directory refresh of the client (`client/selection.mjs`, `lib/directory.mjs`)

One session of the client: the directory in memory, the floor of the `issued` values it accepted and the
cache file on disk.  `ensureLoaded` fetches a directory from the bootnode (or reads the configured file),
falls back to the verified cache when that fails, refuses a fresh directory that is older than the floor
or too old, and otherwise puts the directory in memory.  Refreshes do not overlap: a call that arrives
during one shares its promise.

Verification under the pinned signers is a parameter, and so is the seeding of gateway health from the
persisted cache, which changes health only.  The progress events are not modelled.
-/

namespace ShadeTree.Client

open ShadeTree.Lib

/-- A gateway entry: its onion, the health marks of this client, and the rest of the signed entry. -/
structure Gateway (α η : Type) where
  onion : String
  rest : α
  health : η
  deriving DecidableEq

/-- A parsed directory: `issued` if it is a number, `gateways` if it is an array. -/
structure Directory (α η : Type) where
  issued : Option ℚ
  gateways : Option (List (Gateway α η))
  deriving DecidableEq

/-- `Number(dir.issued) || 0`. -/
def Directory.issuedOf {α η : Type} (d : Directory α η) : ℚ := d.issued.getD 0

inductive Source where
  | bootnode | fresh | cache
  deriving DecidableEq, Repr

/-- A directory that verified, with where it came from and why the fresh one was not used. -/
structure Loaded (α η : Type) where
  dir : Directory α η
  source : Source
  freshError : Option String
  deriving DecidableEq

/-- Why a refresh failed. -/
inductive RefreshError where
  | noVerifiableDirectory (fresh : String)
  | rollback (issued lastAccepted : ℚ)
  | tooStale (issued ageMs : ℚ)
  | malformed
  deriving DecidableEq, Repr

/-- What a write of the cache file comes to: the new content, the old one, or one that does not parse. -/
inductive CacheWrite where
  | written | failed | torn
  deriving DecidableEq, Repr

/-- The configuration of the client. -/
structure Config (α η : Type) where
  bootnodeOnion : Bool
  directoryPath : Bool
  cachePath : Bool
  refreshMs : ℚ
  maxAgeMs : Option ℚ
  maxAgeSkewMs : ℚ
  /-- `verifyDirectory(dir, PINNED_SIGNER)`: the reason it is refused, if it is. -/
  verify : Directory α η → Option String
  /-- `seedHealthFromCache`. -/
  seedHealth : ℚ → List (Gateway α η) → List (Gateway α η)

/-- The variables of the module and the content of the cache file (`none` if it does not parse). -/
structure Session (α η : Type) where
  loaded : Option (Loaded α η)
  loadedAt : ℚ
  lastAcceptedIssued : ℚ
  cacheFile : Option (Directory α η)

/-- One call of `ensureLoaded` and what the outside does during it: the answer of the bootnode or of the
read of the directory file, and the fate of the cache write. -/
structure Refresh (α η : Type) where
  now : ℚ
  force : Bool
  response : Except String (Directory α η)
  write : CacheWrite

section Model

variable {α η : Type} (C : Config α η)

/-- The fetched directory if it verifies, else the reason. -/
def fetchVerified (response : Except String (Directory α η)) : Except String (Directory α η) :=
  match response with
  | .error msg => .error msg
  | .ok dir =>
    match C.verify dir with
    | some reason => .error reason
    | none => .ok dir

/-- The cache file after `fresh` was written to it. -/
def writeCache (file : Option (Directory α η)) (fresh : Directory α η) (w : CacheWrite) :
    Option (Directory α η) :=
  if C.cachePath then
    match w with
    | .written => some fresh
    | .failed => file
    | .torn => none
  else file

/-- The last known good directory, re-verified. -/
def readCache (file : Option (Directory α η)) (msg : String) : Except RefreshError (Loaded α η) :=
  match if C.cachePath then file else none with
  | none => .error (.noVerifiableDirectory msg)
  | some cached =>
    if C.verify cached = none then .ok ⟨cached, .cache, some msg⟩ else .error (.noVerifiableDirectory msg)

/-- `loadFromBootnode()`: the cache file it leaves, and the directory or the error. -/
def loadFromBootnode (file : Option (Directory α η)) (r : Refresh α η) :
    Option (Directory α η) × Except RefreshError (Loaded α η) :=
  match fetchVerified C r.response with
  | .ok fresh => (writeCache C file fresh r.write, .ok ⟨fresh, .bootnode, none⟩)
  | .error msg => (file, readCache C file msg)

/-- `loadDirectory({ path, pinnedSigner, cachePath })`. -/
def loadDirectory (file : Option (Directory α η)) (r : Refresh α η) :
    Option (Directory α η) × Except RefreshError (Loaded α η) :=
  match if C.directoryPath then fetchVerified C r.response else .error "none" with
  | .ok fresh => (writeCache C file fresh r.write, .ok ⟨fresh, .fresh, none⟩)
  | .error msg => (file, readCache C file msg)

/-- The load of a refresh. -/
def load (file : Option (Directory α η)) (r : Refresh α η) :
    Option (Directory α η) × Except RefreshError (Loaded α η) :=
  if C.bootnodeOnion then loadFromBootnode C file r else loadDirectory C file r

/-- Gives each gateway the health that the entry of its onion in `prev` has (the last such entry). -/
def carryHealth (prev gateways : List (Gateway α η)) : List (Gateway α η) :=
  gateways.map fun g =>
    match prev.reverse.find? fun p => p.onion == g.onion with
    | some p => { g with health := p.health }
    | none => g

/-- The directory with its health filled in, from the one in memory or from the persisted cache; `none`
when the code throws because one of the two has no list of gateways. -/
def fillHealth (now : ℚ) (loaded : Option (Loaded α η)) (dir : Directory α η) : Option (Directory α η) :=
  match loaded with
  | none => some { dir with gateways := dir.gateways.map (C.seedHealth now) }
  | some l =>
    match l.dir.gateways, dir.gateways with
    | some prev, some gateways => some { dir with gateways := some (carryHealth prev gateways) }
    | _, _ => none

/-- What a failed refresh answers: the directory in memory, or the error if there is none. -/
def keepLoaded (s : Session α η) (e : RefreshError) : Except RefreshError (Loaded α η) :=
  match s.loaded with
  | some l => .ok l
  | none => .error e

/-- The optional bound on the age of a fresh directory. -/
def tooOld (now issued : ℚ) : Bool :=
  C.maxAgeMs.any fun bound => decide (bound + C.maxAgeSkewMs < now - issued * 1000)

/-- `if (issued > floor) floor = issued`. -/
def raiseFloor (floor issued : ℚ) : ℚ := if floor < issued then issued else floor

/-- The part of `ensureLoaded` after the load. -/
def accept (s : Session α η) (now : ℚ) (next : Loaded α η) :
    Session α η × Except RefreshError (Loaded α η) :=
  let nextIssued := next.dir.issuedOf
  if next.source ≠ .cache ∧ nextIssued < s.lastAcceptedIssued then
    (s, keepLoaded s (.rollback nextIssued s.lastAcceptedIssued))
  else if next.source ≠ .cache ∧ tooOld C now nextIssued = true then
    (s, keepLoaded s (.tooStale nextIssued (now - nextIssued * 1000)))
  else
    let s := { s with lastAcceptedIssued := raiseFloor s.lastAcceptedIssued nextIssued }
    match fillHealth C now s.loaded next.dir with
    | none => (s, keepLoaded s .malformed)
    | some dir =>
      let l := { next with dir := dir }
      ({ s with loaded := some l, loadedAt := now }, .ok l)

/-- The in-memory directory is still inside its refresh window. -/
def inWindow (s : Session α η) (r : Refresh α η) : Bool :=
  !r.force && decide (r.now - s.loadedAt < C.refreshMs)

/-- The load and what follows it. -/
def refresh (s : Session α η) (r : Refresh α η) :
    Session α η × Except RefreshError (Loaded α η) :=
  let fetched := load C s.cacheFile r
  let s := { s with cacheFile := fetched.1 }
  match fetched.2 with
  | .error e => (s, keepLoaded s e)
  | .ok next => accept C s r.now next

/-- `ensureLoaded(onEvent, { force })`. -/
def ensureLoaded (s : Session α η) (r : Refresh α η) :
    Session α η × Except RefreshError (Loaded α η) :=
  match s.loaded, inWindow C s r with
  | some l, true => (s, .ok l)
  | _, _ => refresh C s r

end Model

/-! ### The floor and the directory in memory -/

section Floor

variable {α η : Type} {C : Config α η} {s s' : Session α η} {r : Refresh α η}

/-- The directory in memory is not older than the floor says. -/
def Session.Floored (s : Session α η) : Prop :=
  ∀ l, s.loaded = some l → l.dir.issuedOf ≤ s.lastAcceptedIssued

/-- The directory in memory stays, and its `issued` does not decrease. -/
def NeverDecreases (s s' : Session α η) : Prop :=
  ∀ l, s.loaded = some l → ∃ l', s'.loaded = some l' ∧ l.dir.issuedOf ≤ l'.dir.issuedOf

lemma NeverDecreases.refl (s : Session α η) : NeverDecreases s s := fun l hl => ⟨l, hl, le_rfl⟩

lemma NeverDecreases.trans {s t u : Session α η} (h : NeverDecreases s t) (h' : NeverDecreases t u) :
    NeverDecreases s u := by
  intro l hl
  obtain ⟨l₁, hl₁, hle₁⟩ := h l hl
  obtain ⟨l₂, hl₂, hle₂⟩ := h' l₁ hl₁
  exact ⟨l₂, hl₂, hle₁.trans hle₂⟩

/-- The refresh falls back to the cached directory `cached`: no directory in memory is inside its window,
the fetched one did not verify, and the cached one does. -/
def FallsBackTo (C : Config α η) (s : Session α η) (r : Refresh α η) (cached : Directory α η) : Prop :=
  (s.loaded.isSome && inWindow C s r) = false ∧
    (∀ d, r.response = .ok d → (C.bootnodeOnion || C.directoryPath) = true → C.verify d ≠ none) ∧
    C.cachePath = true ∧ s.cacheFile = some cached ∧ C.verify cached = none

/-- The code can put `dir` in the place of the directory in memory: both have a list of gateways. -/
def Replaces (s : Session α η) (dir : Directory α η) : Prop :=
  ∀ l, s.loaded = some l → l.dir.gateways.isSome ∧ dir.gateways.isSome

/-- **The condition.** If the refresh falls back to the cache, the cached directory is at least as new as
the one in memory it replaces. -/
def CacheIsNewer (C : Config α η) (s : Session α η) (r : Refresh α η) : Prop :=
  ∀ cached, FallsBackTo C s r cached → Replaces s cached →
    ∀ l, s.loaded = some l → l.dir.issuedOf ≤ cached.issuedOf

lemma le_raiseFloor (floor issued : ℚ) : floor ≤ raiseFloor floor issued ∧ issued ≤ raiseFloor floor issued := by
  unfold raiseFloor
  split
  · next h => exact ⟨h.le, le_rfl⟩
  · next h => exact ⟨le_rfl, not_lt.mp h⟩

lemma fillHealth_issued {now : ℚ} {loaded : Option (Loaded α η)} {dir dir' : Directory α η}
    (h : fillHealth C now loaded dir = some dir') : dir'.issuedOf = dir.issuedOf := by
  unfold fillHealth at h
  split at h
  · obtain rfl := Option.some.inj h
    rfl
  · split at h
    · obtain rfl := Option.some.inj h
      rfl
    · cases h

lemma fillHealth_isSome (now : ℚ) (dir : Directory α η) :
    (fillHealth C now s.loaded dir).isSome ↔ Replaces s dir := by
  unfold fillHealth Replaces
  cases hl : s.loaded with
  | none => simp
  | some l =>
    cases hg : l.dir.gateways <;> cases hg' : dir.gateways <;> simp [hg]

/-- What a fresh directory does: nothing, or it is accepted at the floor or above. -/
lemma accept_fresh (now : ℚ) {next : Loaded α η} (hf : s.Floored) (hsrc : next.source ≠ .cache) :
    (accept C s now next).1.Floored ∧ NeverDecreases s (accept C s now next).1 := by
  unfold accept
  dsimp only
  split
  · exact ⟨hf, .refl s⟩
  · next hroll =>
    split
    · exact ⟨hf, .refl s⟩
    · have hge : s.lastAcceptedIssued ≤ next.dir.issuedOf := by
        by_contra hlt
        exact hroll ⟨hsrc, not_le.mp hlt⟩
      obtain ⟨hfloor, hnext⟩ := le_raiseFloor s.lastAcceptedIssued next.dir.issuedOf
      cases hfill : fillHealth C now s.loaded next.dir with
      | none => exact ⟨fun l hl => (hf l hl).trans hfloor, fun l hl => ⟨l, hl, le_rfl⟩⟩
      | some dir =>
        have hi := fillHealth_issued hfill
        refine ⟨fun l hl => ?_, fun l hl => ⟨_, rfl, ?_⟩⟩
        · obtain rfl := Option.some.inj hl
          exact hi.le.trans hnext
        · exact ((hf l hl).trans hge).trans hi.ge

/-- What a cached directory does: it replaces the one in memory whatever its `issued` is. -/
lemma accept_cache (now : ℚ) {next : Loaded α η} (hf : s.Floored) (hsrc : next.source = .cache) :
    (accept C s now next).1.Floored ∧
      (NeverDecreases s (accept C s now next).1 ↔
        (Replaces s next.dir → ∀ l, s.loaded = some l → l.dir.issuedOf ≤ next.dir.issuedOf)) := by
  have hrep := fillHealth_isSome (C := C) (s := s) now next.dir
  unfold accept
  simp only [hsrc, ne_eq, not_true_eq_false, false_and, if_false]
  obtain ⟨hfloor, hnext⟩ := le_raiseFloor s.lastAcceptedIssued next.dir.issuedOf
  cases hfill : fillHealth C now s.loaded next.dir with
  | none =>
    rw [hfill] at hrep
    refine ⟨fun l hl => (hf l hl).trans hfloor, iff_of_true (fun l hl => ⟨l, hl, le_rfl⟩) fun h => ?_⟩
    exact absurd (hrep.mpr h) (by simp)
  | some dir =>
    rw [hfill] at hrep
    have hi := fillHealth_issued hfill
    refine ⟨fun l hl => ?_, fun h _ l hl => ?_, fun h l hl => ⟨_, rfl, ?_⟩⟩
    · obtain rfl := Option.some.inj hl
      exact hi.le.trans hnext
    · obtain ⟨l', hl', hle⟩ := h l hl
      obtain rfl := Option.some.inj hl'
      exact hle.trans hi.le
    · exact (h (hrep.mp rfl) l hl).trans hi.ge

lemma fetchVerified_ok {response : Except String (Directory α η)} {d : Directory α η}
    (h : fetchVerified C response = .ok d) : response = .ok d ∧ C.verify d = none := by
  unfold fetchVerified at h
  rcases response with msg | dir
  · cases h
  · cases hv : C.verify dir with
    | some reason => simp [hv] at h
    | none =>
      obtain rfl : dir = d := by simpa [hv] using h
      exact ⟨rfl, hv⟩

lemma fetchVerified_error {response : Except String (Directory α η)} {msg : String}
    (h : fetchVerified C response = .error msg) : ∀ d, response = .ok d → C.verify d ≠ none := by
  intro d hd hv
  simp [fetchVerified, hd, hv] at h

lemma readCache_ok {file : Option (Directory α η)} {msg : String} {next : Loaded α η}
    (h : readCache C file msg = .ok next) : next.source = .cache ∧ C.cachePath = true ∧
      file = some next.dir ∧ C.verify next.dir = none := by
  unfold readCache at h
  cases hp : C.cachePath with
  | false => simp [hp] at h
  | true =>
    rcases file with - | cached
    · simp [hp] at h
    · by_cases hv : C.verify cached = none
      · obtain rfl : (⟨cached, .cache, some msg⟩ : Loaded α η) = next := by simpa [hp, hv] using h
        exact ⟨rfl, rfl, rfl, hv⟩
      · simp [hp, hv] at h

/-- No fetched directory verified: the fetch failed, or nothing was fetched at all. -/
def NothingFresh (C : Config α η) (r : Refresh α η) : Prop :=
  ∀ d, r.response = .ok d → (C.bootnodeOnion || C.directoryPath) = true → C.verify d ≠ none

/-- A load takes the fetched directory if it verifies, and reads the cache if not. -/
lemma load_spec (file : Option (Directory α η)) (r : Refresh α η) :
    (¬ NothingFresh C r ∧ ∃ file' next, load C file r = (file', .ok next) ∧ next.source ≠ .cache) ∨
      (NothingFresh C r ∧ ∃ msg, load C file r = (file, readCache C file msg)) := by
  unfold load
  cases hb : C.bootnodeOnion with
  | true =>
    simp only [if_true, loadFromBootnode]
    cases hf : fetchVerified C r.response with
    | ok fresh =>
      obtain ⟨hr, hv⟩ := fetchVerified_ok hf
      exact .inl ⟨fun h => h fresh hr (by simp [hb]) hv, _, _, rfl, by simp⟩
    | error msg => exact .inr ⟨fun d hd _ => fetchVerified_error hf d hd, msg, rfl⟩
  | false =>
    simp only [Bool.false_eq_true, if_false, loadDirectory]
    cases hp : C.directoryPath with
    | true =>
      simp only [if_true]
      cases hf : fetchVerified C r.response with
      | ok fresh =>
        obtain ⟨hr, hv⟩ := fetchVerified_ok hf
        exact .inl ⟨fun h => h fresh hr (by simp [hp]) hv, _, _, rfl, by simp⟩
      | error msg => exact .inr ⟨fun d hd _ => fetchVerified_error hf d hd, msg, rfl⟩
    | false => exact .inr ⟨fun d _ hp' => by simp [hb, hp] at hp', "none", rfl⟩

/-- A refresh that reads the cache hands on the cached directory exactly when it verifies. -/
lemma readCache_iff {file : Option (Directory α η)} (msg : String) {cached : Directory α η} :
    (∃ next, readCache C file msg = .ok next ∧ next.dir = cached) ↔
      C.cachePath = true ∧ file = some cached ∧ C.verify cached = none := by
  constructor
  · rintro ⟨next, hr, rfl⟩
    exact (readCache_ok hr).2
  · rintro ⟨hp, rfl, hv⟩
    exact ⟨⟨cached, .cache, some msg⟩, by simp [readCache, hp, hv], rfl⟩

lemma ensureLoaded_inWindow (h : (s.loaded.isSome && inWindow C s r) = true) :
    (ensureLoaded C s r).1 = s := by
  obtain ⟨hl, hw⟩ := Bool.and_eq_true_iff.mp h
  obtain ⟨l, hl⟩ := Option.isSome_iff_exists.mp hl
  simp [ensureLoaded, hl, hw]

lemma ensureLoaded_refresh (h : (s.loaded.isSome && inWindow C s r) = false) :
    ensureLoaded C s r = refresh C s r := by
  unfold ensureLoaded
  cases hl : s.loaded with
  | none => rfl
  | some l =>
    have hw : inWindow C s r = false := by simpa [hl] using h
    rw [hw]

/-- What one refresh does: the floor stays above the directory in memory, and this directory gets older
exactly when an older cached one takes its place. -/
theorem ensureLoaded_step (C : Config α η) (r : Refresh α η) (hf : s.Floored) :
    (ensureLoaded C s r).1.Floored ∧
      (NeverDecreases s (ensureLoaded C s r).1 ↔ CacheIsNewer C s r) := by
  cases hw : (s.loaded.isSome && inWindow C s r) with
  | true =>
    rw [ensureLoaded_inWindow hw]
    refine ⟨hf, iff_of_true (.refl s) fun cached hc => ?_⟩
    exact absurd (hw.symm.trans hc.1) (by simp)
  | false =>
    rw [ensureLoaded_refresh hw, refresh]
    -- the file that the load leaves has no part in what follows
    have hf' : ∀ file, ({ s with cacheFile := file } : Session α η).Floored := fun _ => hf
    rcases load_spec (C := C) s.cacheFile r with ⟨hfresh, file', next, hload, hsrc⟩ | ⟨hno, msg, hload⟩
    · rw [hload]
      obtain ⟨hfl, hmono⟩ := accept_fresh (C := C) r.now (hf' file') hsrc
      exact ⟨hfl, iff_of_true hmono fun cached hc => absurd hc.2.1 hfresh⟩
    · rw [hload]
      cases hrc : readCache C s.cacheFile msg with
      | error e =>
        refine ⟨hf, iff_of_true (.refl s) fun cached hc => ?_⟩
        obtain ⟨next, hok, -⟩ := (readCache_iff msg).mpr hc.2.2
        rw [hrc] at hok
        cases hok
      | ok next =>
        obtain ⟨hsrc, hp, hfile, hv⟩ := readCache_ok hrc
        obtain ⟨hfl, hmono⟩ := accept_cache (C := C) r.now (hf' s.cacheFile) hsrc
        refine ⟨hfl, hmono.trans ⟨fun h cached hc => ?_, fun h => ?_⟩⟩
        · obtain rfl : next.dir = cached := Option.some.inj (hfile.symm.trans hc.2.2.2.1)
          exact h
        · exact h next.dir ⟨hw, hno, hp, hfile, hv⟩

/-- A session at its start: nothing in memory, no floor, any cache file from an earlier one. -/
def Session.initial (file : Option (Directory α η)) : Session α η := ⟨none, 0, 0, file⟩

/-- The refreshes of a session, with what each of them answers. -/
def RefreshStep (C : Config α η) :
    Session α η → Refresh α η × Except RefreshError (Loaded α η) → Session α η → Prop :=
  ofFun (ensureLoaded C)

lemma Session.initial_floored (file : Option (Directory α η)) : (Session.initial file).Floored := by
  intro l hl
  cases hl

lemma run_floored {file : Option (Directory α η)}
    {tr : List (Refresh α η × Except RefreshError (Loaded α η))}
    (h : Run (RefreshStep C) (.initial file) tr s) : s.Floored := by
  refine h.invariant_state (I := Session.Floored) (Session.initial_floored file) ?_
  intro t e u ht hst
  have hu := (ensureLoaded_step C e.1 ht).1
  rw [show ensureLoaded C t e.1 = (u, e.2) from hst] at hu
  exact hu

/-- **Rollback of the directory in memory.** In every session, a refresh leaves the `issued` value that
selection sees at what it was or raises it exactly when the cached directory it may fall back to is not
older than the one in memory; over the refreshes that meet this condition it never decreases. -/
theorem issued_never_decreases (C : Config α η) (file : Option (Directory α η)) :
    (∀ tr s r, Run (RefreshStep C) (.initial file) tr s →
      (NeverDecreases s (ensureLoaded C s r).1 ↔ CacheIsNewer C s r)) ∧
    ∀ tr s tr' t, Run (RefreshStep C) (.initial file) tr s →
      Run (Restrict (RefreshStep C) fun s e => CacheIsNewer C s e.1) s tr' t → NeverDecreases s t := by
  constructor
  · intro tr s r hrun
    exact (ensureLoaded_step C r (run_floored hrun)).2
  · intro tr s tr' t hrun hrun'
    have hinv : NeverDecreases s t ∧ t.Floored := by
      refine hrun'.invariant_state (I := fun t => NeverDecreases s t ∧ t.Floored)
        ⟨.refl s, run_floored hrun⟩ ?_
      rintro t e u ⟨hmono, hfl⟩ ⟨hC, hst⟩
      obtain ⟨hfl', hiff⟩ := ensureLoaded_step C e.1 hfl
      rw [show ensureLoaded C t e.1 = (u, e.2) from hst] at hfl' hiff
      exact ⟨hmono.trans (hiff.mpr hC), hfl'⟩
    exact hinv.1

end Floor

/-! ### A signed replay, then an outage -/

/-- A client of a bootnode with a cache file and no bound on the age, to whom every directory is signed. -/
def cachingClient : Config Unit Unit where
  bootnodeOnion := true
  directoryPath := false
  cachePath := true
  refreshMs := 300000
  maxAgeMs := none
  maxAgeSkewMs := 300000
  verify := fun _ => none
  seedHealth := fun _ gateways => gateways

def signedAt (issued : ℚ) : Directory Unit Unit := ⟨some issued, some [⟨"tree.onion", (), ()⟩]⟩

/-- A forced refresh that the bootnode answers with the directory of `issued`. -/
def polled (issued : ℚ) : Refresh Unit Unit := ⟨0, true, .ok (signedAt issued), .written⟩

def unanswered : Refresh Unit Unit := ⟨0, true, .error "timeout", .failed⟩

/-- The directory of 10 is in memory and the replayed one of 5 is refused, but in the cache file. -/
def replayed : Session Unit Unit :=
  ⟨some ⟨signedAt 10, .bootnode, none⟩, 0, 10, some (signedAt 5)⟩

lemma replayed_reached : Run (RefreshStep cachingClient) (.initial none)
    [(polled 10, .ok ⟨signedAt 10, .bootnode, none⟩), (polled 5, .ok ⟨signedAt 10, .bootnode, none⟩)]
    replayed := by
  have h₁ : RefreshStep cachingClient (.initial none) (polled 10, .ok ⟨signedAt 10, .bootnode, none⟩)
      ⟨some ⟨signedAt 10, .bootnode, none⟩, 0, 10, some (signedAt 10)⟩ := by
    rfl
  exact .cons h₁ (.single rfl)

/-- The next refresh gets no answer: it takes the refused directory out of the cache, and `issued` goes
from 10 back to 5. -/
theorem issued_decreases_after_replay :
    ¬ ∀ tr s r, Run (RefreshStep cachingClient) (.initial none) tr s →
      NeverDecreases s (ensureLoaded cachingClient s r).1 := by
  intro h
  obtain ⟨l, hl, hle⟩ := h _ replayed unanswered replayed_reached _ rfl
  have hcache : (ensureLoaded cachingClient replayed unanswered).1.loaded =
      some ⟨signedAt 5, .cache, some "timeout"⟩ := rfl
  obtain rfl := Option.some.inj (hcache.symm.trans hl)
  exact absurd hle (by decide)

/-- A session in which the bootnode moves on from 10 to 20. -/
theorem issued_never_decreases_polled :
    NeverDecreases (ensureLoaded cachingClient (.initial none) (polled 10)).1
      (ensureLoaded cachingClient (ensureLoaded cachingClient (.initial none) (polled 10)).1 (polled 20)).1 := by
  have step (s : Session Unit Unit) (r : Refresh Unit Unit) : RefreshStep cachingClient s
      (r, (ensureLoaded cachingClient s r).2) (ensureLoaded cachingClient s r).1 := rfl
  refine (issued_never_decreases cachingClient none).2 _ _ _ _ (.single (step _ (polled 10)))
    (.single ⟨fun cached hc => ?_, step _ (polled 20)⟩)
  exact absurd rfl (hc.2.1 _ rfl rfl)

end ShadeTree.Client
