import ShadeTree.Client.Refresh
import ShadeTree.Directory.Caps
import ShadeTree.Lib.OrderedMap

/-!
# Health of gateways (`reportResult`, `seedHealthFromCache`, `updateHealthCache` in `client/selection.mjs`)

The health of a gateway lives in three places: the signed entry, the marks on the entry of the directory in memory,
which a refresh carries over, and the persisted cache, which is read when a session loads its first directory.  The
results of dials change the last two.  Saves of the cache succeed.  Left out is the latency, which no health reads.
-/

namespace ShadeTree.Client

open ShadeTree.Lib

/-- The marks on an entry: `health`, which is signed at first, and `_fails`. -/
structure Marks where
  health : Option Value
  fails : Option ℕ

def up : Option Value := some (.str "up")

def down : Option Value := some (.str "down")

/-- `cache[onion]`. -/
structure HealthEntry where
  fails : ℕ
  lastFail : ℚ
  lastSeen : ℚ

abbrev HealthCache := OrderedMap String HealthEntry

/-- `HEALTH_CACHE_PATH` (is there one), `HEALTH_MAX_ENTRIES` and `HEALTH_DECAY_MS`. -/
structure HealthConfig where
  cachePath : Bool
  maxEntries : ℕ
  decayMs : ℚ

def HEALTH_FAIL_THRESHOLD : ℕ := 2

section Model

variable {α : Type} (H : HealthConfig)

/-! ### The persisted cache -/

/-- `boundHealthCache`: the entries seen longest ago are dropped. -/
def boundHealthCache (cache : HealthCache) : HealthCache :=
  if cache.keys.length ≤ H.maxEntries then cache
  else
    ((cache.entries.insertionSort fun a b => a.2.lastSeen ≤ b.2.lastSeen).take
      (cache.keys.length - H.maxEntries)).foldl (fun cache e => cache.delete e.1) cache

/-- Its entry is so old that it counts as recovered. -/
def decayed (now : ℚ) (e : HealthEntry) : Bool := H.decayMs ≤ now - e.lastSeen

def seedEntry (cache : HealthCache) (now : ℚ) (g : Gateway α Marks) : Gateway α Marks :=
  match cache.get g.onion with
  | none => g
  | some e =>
    if decayed H now e then g
    else { g with health := {
      health := if HEALTH_FAIL_THRESHOLD ≤ e.fails then down else g.health.health
      fails := if 0 < e.fails then some e.fails else g.health.fails } }

/-- The cache after `seedHealthFromCache`. -/
def pruneCache (cache : HealthCache) (now : ℚ) (gateways : List (Gateway α Marks)) : HealthCache :=
  gateways.foldl (fun cache g => if (cache.get g.onion).any (decayed H now) then cache.delete g.onion else cache) cache

/-- The entry after a result. -/
def HealthEntry.update (ok : Option Bool) (now : ℚ) (e : HealthEntry) : HealthEntry :=
  match ok with
  | some false => ⟨e.fails + 1, now, now⟩
  | some true => ⟨0, e.lastFail, now⟩
  | none => ⟨e.fails, e.lastFail, now⟩

/-- The cache of `updateHealthCache` before it is saved. -/
def noteResult (onion : String) (ok : Option Bool) (now : ℚ) (cache : HealthCache) : HealthCache :=
  cache.set onion (((cache.get onion).getD ⟨0, 0, 0⟩).update ok now)

/-! ### The marks -/

/-- `(g._fails || 0) + 1`, and down from two failures on. -/
def Marks.report (ok : Option Bool) (m : Marks) : Marks :=
  match ok with
  | some false => ⟨if 2 ≤ m.fails.getD 0 + 1 then down else m.health, some (m.fails.getD 0 + 1)⟩
  | some true => ⟨up, some 0⟩
  | none => m

/-- `reportHealth`: the first entry with the onion is marked. -/
def reportHealth (onion : String) (ok : Option Bool) : List (Gateway α Marks) → List (Gateway α Marks)
  | [] => []
  | g :: gateways =>
    if g.onion = onion then { g with health := g.health.report ok } :: gateways
    else g :: reportHealth onion ok gateways

/-! ### The client -/

/-- The session, `_healthCache` and the file it is kept in. -/
structure HealthState (α : Type) where
  session : Session α Marks
  healthCache : HealthCache
  healthFile : HealthCache

/-- The gateways of the directory in memory. -/
def HealthState.listed (s : HealthState α) : List (Gateway α Marks) :=
  (s.session.loaded.bind fun l => l.dir.gateways).getD []

variable (C : Config α Marks)

/-- The configuration with the cache that a first load seeds from. -/
def seeding (cache : HealthCache) : Config α Marks :=
  { C with seedHealth := fun now gateways => gateways.map (seedEntry H cache now) }

/-- `ensureLoaded`. -/
def HealthState.refresh (s : HealthState α) (r : Refresh α Marks) : HealthState α :=
  let session := (ensureLoaded (seeding H C s.healthCache) s.session r).1
  { s with
    session := session
    healthCache := match s.session.loaded, session.loaded with
      | none, some l => pruneCache H s.healthCache r.now (l.dir.gateways.getD [])
      | _, _ => s.healthCache }

/-- `onion.endsWith(".onion") ? onion : onion + ".onion"`. -/
def fullOnion (onion : String) : String :=
  if ".onion".toList.isSuffixOf onion.toList then onion else onion ++ ".onion"

/-- `reportResult(onion, { ok })` at the time `now`. -/
def HealthState.reportResult (s : HealthState α) (onion : String) (ok : Option Bool) (now : ℚ) : HealthState α :=
  match s.session.loaded with
  | none => s
  | some l =>
    let full := fullOnion onion
    let marked := { l with dir := { l.dir with gateways := l.dir.gateways.map (reportHealth full ok) } }
    let s' := { s with session := { s.session with loaded := some marked } }
    if H.cachePath ∧ full ∈ s.listed.map Gateway.onion then
      let cache := boundHealthCache H (noteResult full ok now s.healthCache)
      { s' with healthCache := cache, healthFile := cache }
    else s'

/-- A new process: what was in memory is gone. -/
def HealthState.restart (s : HealthState α) : HealthState α :=
  ⟨.initial s.session.cacheFile, s.healthFile, s.healthFile⟩

/-! ### What happened -/

inductive HealthEvent (α : Type) where
  | refresh (r : Refresh α Marks)
  | report (onion : String) (ok : Option Bool) (now : ℚ)
  | restart

/-- The results reported for every onion, oldest first, those that were reported while a gateway was not listed among
them; and the directory that was put in memory last, as it was signed. -/
structure History (α : Type) where
  results : String → List Bool
  lost : List String
  adopted : Option (Directory α Marks)

/-- The directory that a refresh puts in memory, as it was loaded. -/
def adopted {η : Type} (C : Config α η) (s : Session α η) (r : Refresh α η) : Option (Directory α η) :=
  if s.loaded.isSome && inWindow C s r then none
  else
    match (load C s.cacheFile r).2 with
    | .error _ => none
    | .ok next =>
      if next.source ≠ .cache ∧ (next.dir.issuedOf < s.lastAcceptedIssued ∨ tooOld C r.now next.dir.issuedOf = true)
      then none
      else if (fillHealth C r.now s.loaded next.dir).isSome then some next.dir else none

/-- The directory that a refresh of the client puts in memory. -/
def HealthState.adopts (s : HealthState α) (r : Refresh α Marks) : Option (Directory α Marks) :=
  adopted (seeding H C s.healthCache) s.session r

def HealthState.next (s : HealthState α) : HealthEvent α → HealthState α
  | .refresh r => s.refresh H C r
  | .report onion ok now => s.reportResult H onion ok now
  | .restart => s.restart

def History.next (h : History α) (s : HealthState α) : HealthEvent α → History α
  | .refresh r => { h with adopted := (s.adopts H C r).or h.adopted }
  | .report onion (some ok) _ =>
    let full := fullOnion onion
    { h with
      results := Function.update h.results full (h.results full ++ [ok])
      lost := if full ∈ s.listed.map Gateway.onion then h.lost else full :: h.lost }
  | _ => h

/-- The client and what happened, from one event to the next. -/
def HealthStep (x : HealthState α × History α) (e : HealthEvent α) (y : HealthState α × History α) : Prop :=
  y = (x.1.next H C e, x.2.next H C x.1 e)

/-- A first process: nothing was reported yet, and the directory cache holds anything. -/
def freshHealth (file : Option (Directory α Marks)) : HealthState α × History α :=
  (⟨.initial file, .empty, .empty⟩, ⟨fun _ => [], [], none⟩)

/-! ### What the marks should say -/

/-- The failures since the last success. -/
def failures (results : List Bool) : ℕ := results.foldl (fun n ok => if ok then 0 else n + 1) 0

/-- **Health reflects evidence.** A gateway is down after two failures in a row and up after a success, and has the
health that was signed while nothing was reported. -/
structure Reflects (h : History α) (g : Gateway α Marks) : Prop where
  failed : 2 ≤ failures (h.results g.onion) → g.health.health = down
  succeeded : (h.results g.onion).getLast? = some true → g.health.health = up
  signed : h.results g.onion = [] → ∃ dir, h.adopted = some dir ∧
    ∃ g' ∈ dir.gateways.getD [], g'.onion = g.onion ∧ g.health.health = g'.health.health

/-- The persisted cache is not filled up by the event, and no entry it reads has decayed. -/
def Persistent (s : HealthState α) : HealthEvent α → Prop
  | .refresh r => s.session.loaded = none → ∀ dir, s.adopts H C r = some dir → ∀ g ∈ dir.gateways.getD [],
      ∀ e, s.healthCache.get g.onion = some e → decayed H r.now e = false
  | .report onion ok now => (noteResult (fullOnion onion) ok now s.healthCache).keys.length ≤ H.maxEntries
  | .restart => True

/-- What was signed goes with what was reported. -/
def Agrees (results : List Bool) (health : Option Value) : Prop :=
  results = [] ∨ results.getLast? = some true ∧ health = up ∨ 2 ≤ failures results ∧ health = down

/-- **The condition on a refresh.** The directory that is put in memory lists an onion once, without marks of its own
and without a gateway whose results were lost.  The first of a session signs what was dialed last with success as up; a
later one signs what was never dialed as before, and what it lists anew as it was reported. -/
structure Traceable (x : HealthState α × History α) (listed : List (Gateway α Marks)) : Prop where
  distinct : (listed.map Gateway.onion).Nodup
  unmarked : ∀ g ∈ listed, g.health.fails = none
  kept : ∀ g ∈ listed, g.onion ∉ x.2.lost
  first : x.1.session.loaded = none →
    ∀ g ∈ listed, (x.2.results g.onion).getLast? = some true → g.health.health = up
  still : ∀ g ∈ listed, ∀ p ∈ x.1.listed, p.onion = g.onion → x.2.results g.onion = [] →
    p.health.health = g.health.health
  anew : x.1.session.loaded ≠ none → ∀ g ∈ listed, g.onion ∉ x.1.listed.map Gateway.onion →
    Agrees (x.2.results g.onion) g.health.health

/-- The condition on an event. -/
def Followed (x : HealthState α × History α) : HealthEvent α → Prop
  | .refresh r => ∀ dir, x.1.adopts H C r = some dir → Traceable x (dir.gateways.getD [])
  | _ => True

end Model

/-! ### The directory in memory -/

section Adopted

variable {α η : Type} {C : Config α η} {s : Session α η} {r : Refresh α η}

/-- A refresh leaves the directory in memory, or puts another one there with its health filled in. -/
lemma ensureLoaded_loaded : match adopted C s r with
    | none => (ensureLoaded C s r).1.loaded = s.loaded
    | some dir => ∃ l, (ensureLoaded C s r).1.loaded = some l ∧ fillHealth C r.now s.loaded dir = some l.dir := by
  unfold adopted
  cases hw : (s.loaded.isSome && inWindow C s r) with
  | true =>
    rw [if_pos rfl, ensureLoaded_inWindow hw]
  | false =>
    rw [if_neg (by simp), ensureLoaded_refresh hw, refresh]
    cases hload : (load C s.cacheFile r).2 with
    | error e => rfl
    | ok next =>
      simp only [accept]
      by_cases hroll : next.source ≠ .cache ∧ next.dir.issuedOf < s.lastAcceptedIssued
      · rw [if_pos ⟨hroll.1, .inl hroll.2⟩, if_pos hroll]
      · rw [if_neg hroll]
        by_cases hstale : next.source ≠ .cache ∧ tooOld C r.now next.dir.issuedOf = true
        · rw [if_pos ⟨hstale.1, .inr hstale.2⟩, if_pos hstale]
        · rw [if_neg hstale, if_neg]
          · cases hfill : fillHealth C r.now s.loaded next.dir with
            | none => simp
            | some dir => exact ⟨_, rfl, hfill⟩
          · rintro ⟨hsource, hlt | hold⟩
            · exact hroll ⟨hsource, hlt⟩
            · exact hstale ⟨hsource, hold⟩

end Adopted

/-! ### One event -/

section Events

variable {α : Type} {H : HealthConfig} {C : Config α Marks} {s : HealthState α} {h : History α}
  {gateways : List (Gateway α Marks)} {onion : String} {ok : Option Bool} {now : ℚ}

lemma failures_snoc (results : List Bool) (ok : Bool) :
    failures (results ++ [ok]) = if ok then 0 else failures results + 1 := by
  simp [failures]

lemma failures_of_success {results : List Bool} (h : results.getLast? = some true) : failures results = 0 := by
  obtain ⟨before, rfl⟩ := List.getLast?_eq_some_iff.mp h
  rw [failures_snoc, if_pos rfl]

lemma reportHealth_onions : (reportHealth onion ok gateways).map Gateway.onion = gateways.map Gateway.onion := by
  induction gateways with
  | nil => rfl
  | cons g gateways ih =>
    rw [reportHealth]
    split_ifs
    · rfl
    · rw [List.map_cons, ih, List.map_cons]

/-- A report marks the entry of its onion, and no other. -/
lemma mem_reportHealth (hdistinct : (gateways.map Gateway.onion).Nodup) {g : Gateway α Marks}
    (hg : g ∈ reportHealth onion ok gateways) : (g.onion ≠ onion ∧ g ∈ gateways) ∨
      ∃ p ∈ gateways, p.onion = onion ∧ g = { p with health := p.health.report ok } := by
  induction gateways with
  | nil => cases hg
  | cons p gateways ih =>
    rw [List.map_cons, List.nodup_cons] at hdistinct
    rw [reportHealth] at hg
    split_ifs at hg with hp
    · rcases List.mem_cons.mp hg with rfl | hg
      · exact .inr ⟨p, List.mem_cons_self, hp, rfl⟩
      · refine .inl ⟨fun heq => hdistinct.1 ?_, List.mem_cons_of_mem _ hg⟩
        rw [hp, ← heq]
        exact List.mem_map_of_mem hg
    · rcases List.mem_cons.mp hg with rfl | hg
      · exact .inl ⟨hp, List.mem_cons_self⟩
      · rcases ih hdistinct.2 hg with ⟨hne, hmem⟩ | ⟨q, hq, hsame⟩
        · exact .inl ⟨hne, List.mem_cons_of_mem _ hmem⟩
        · exact .inr ⟨q, List.mem_cons_of_mem _ hq, hsame⟩

lemma carryHealth_onions (prev gateways : List (Gateway α Marks)) :
    (carryHealth prev gateways).map Gateway.onion = gateways.map Gateway.onion := by
  rw [carryHealth, List.map_map]
  refine List.map_congr_left fun g _ => ?_
  simp only [Function.comp_apply]
  split <;> rfl

/-- An entry of the next directory has the marks of its onion, if there are any. -/
lemma mem_carryHealth {prev : List (Gateway α Marks)} {g : Gateway α Marks} (hg : g ∈ carryHealth prev gateways) :
    ∃ g' ∈ gateways, (∃ p ∈ prev, p.onion = g'.onion ∧ g = { g' with health := p.health }) ∨
      (g'.onion ∉ prev.map Gateway.onion ∧ g = g') := by
  obtain ⟨g', hg', rfl⟩ := List.mem_map.mp hg
  refine ⟨g', hg', ?_⟩
  cases hfind : prev.reverse.find? fun p => p.onion == g'.onion with
  | none =>
    refine .inr ⟨fun hmem => ?_, rfl⟩
    obtain ⟨p, hp, hsame⟩ := List.mem_map.mp hmem
    exact absurd (List.find?_eq_none.mp hfind p (List.mem_reverse.mpr hp)) (by simp [hsame])
  | some p =>
    exact .inl ⟨p, List.mem_reverse.mp (List.mem_of_find?_eq_some hfind), by simpa using List.find?_some hfind, rfl⟩

lemma seedEntry_onion (cache : HealthCache) (g : Gateway α Marks) : (seedEntry H cache now g).onion = g.onion := by
  unfold seedEntry
  split
  · rfl
  · split_ifs <;> rfl

lemma pruneCache_eq {cache : HealthCache}
    (hyoung : ∀ g ∈ gateways, ∀ e, cache.get g.onion = some e → decayed H now e = false) :
    pruneCache H cache now gateways = cache := by
  unfold pruneCache
  induction gateways with
  | nil => rfl
  | cons g gateways ih =>
    have hnone : (cache.get g.onion).any (decayed H now) = false := by
      cases hget : cache.get g.onion with
      | none => rfl
      | some e => exact hyoung g List.mem_cons_self e hget
    rw [List.foldl_cons, hnone]
    exact ih fun g' hg' => hyoung g' (List.mem_cons_of_mem _ hg')

/-- **What a refresh does.** It leaves the gateways, or lists those of a directory, with the health of the cache in the
first of a session and with the marks there are in a later one. -/
lemma refresh_listed (r : Refresh α Marks) : match s.adopts H C r with
    | none => (s.refresh H C r).listed = s.listed ∧ (s.refresh H C r).healthCache = s.healthCache
    | some dir => (s.session.loaded = none ∧
          (s.refresh H C r).listed = (dir.gateways.getD []).map (seedEntry H s.healthCache r.now) ∧
          (s.refresh H C r).healthCache = pruneCache H s.healthCache r.now (s.refresh H C r).listed) ∨
        (s.session.loaded ≠ none ∧ (s.refresh H C r).listed = carryHealth s.listed (dir.gateways.getD []) ∧
          (s.refresh H C r).healthCache = s.healthCache) := by
  have hloaded := ensureLoaded_loaded (C := seeding H C s.healthCache) (s := s.session) (r := r)
  unfold HealthState.adopts
  cases hadopted : adopted (seeding H C s.healthCache) s.session r with
  | none =>
    rw [hadopted] at hloaded
    have hsame : (s.refresh H C r).session.loaded = s.session.loaded := hloaded
    refine ⟨by rw [HealthState.listed, hsame]; rfl, ?_⟩
    simp only [HealthState.refresh, hloaded]
    cases s.session.loaded <;> rfl
  | some dir =>
    rw [hadopted] at hloaded
    obtain ⟨l, hl, hfill⟩ := hloaded
    have hlisted : (s.refresh H C r).listed = l.dir.gateways.getD [] := by
      rw [HealthState.listed, show (s.refresh H C r).session.loaded = some l from hl]
      rfl
    cases hbefore : s.session.loaded with
    | none =>
      rw [hbefore] at hfill
      refine .inl ⟨rfl, ?_, ?_⟩
      · rw [hlisted, ← Option.some.inj hfill]
        cases hgateways : dir.gateways with
        | none => simp
        | some gateways => simp [seeding]
      · rw [hlisted]
        simp only [HealthState.refresh, hl, hbefore]
    | some l' =>
      rw [hbefore] at hfill
      refine .inr ⟨by simp, ?_, ?_⟩
      · rw [hlisted, HealthState.listed, hbefore]
        unfold fillHealth at hfill
        cases hprev : l'.dir.gateways with
        | none => simp [hprev] at hfill
        | some prev =>
          cases hgateways : dir.gateways with
          | none => simp [hprev, hgateways] at hfill
          | some gateways =>
            simp only [hprev, hgateways, Option.some.injEq] at hfill
            rw [← hfill]
            simp [hprev]
      · simp only [HealthState.refresh, hl, hbefore]

lemma report_listed : (s.reportResult H onion ok now).listed = reportHealth (fullOnion onion) ok s.listed := by
  unfold HealthState.reportResult
  cases hloaded : s.session.loaded with
  | none => simp [HealthState.listed, hloaded, reportHealth]
  | some l =>
    have hsame : s.listed = l.dir.gateways.getD [] := by simp [HealthState.listed, hloaded]
    rw [hsame]
    dsimp only
    split_ifs <;> cases l.dir.gateways <;> simp [HealthState.listed, reportHealth]

/-- A cache that is not filled up keeps the result of a listed gateway, and is saved. -/
lemma report_cache (hpath : H.cachePath = true) (hcap : Persistent H C s (.report onion ok now)) :
    let s' := s.reportResult H onion ok now
    (fullOnion onion ∈ s.listed.map Gateway.onion ∧ s'.healthCache = noteResult (fullOnion onion) ok now s.healthCache ∧
      s'.healthFile = s'.healthCache) ∨
    (fullOnion onion ∉ s.listed.map Gateway.onion ∧ s'.healthCache = s.healthCache ∧ s'.healthFile = s.healthFile) := by
  dsimp only
  unfold HealthState.reportResult
  cases hloaded : s.session.loaded with
  | none => exact .inr ⟨by simp [HealthState.listed, hloaded], rfl, rfl⟩
  | some l =>
    dsimp only
    split_ifs with hmem
    · refine .inl ⟨hmem.2, ?_, rfl⟩
      exact if_pos hcap
    · exact .inr ⟨fun h => hmem ⟨hpath, h⟩, rfl, rfl⟩

/-! ### The evidence -/

/-- The marks count the failures, unless the gateway is down already. -/
def Counted (results : List Bool) (m : Marks) : Prop :=
  m.fails.getD 0 = failures results ∨ 2 ≤ failures results ∧ m.health = down

/-- The count of the cache. -/
def HealthState.fails (s : HealthState α) (onion : String) : ℕ :=
  ((s.healthCache.get onion).map HealthEntry.fails).getD 0

/-- What the client keeps true: the cache and its file know every result that was not lost, and so do the marks. -/
structure Evident (x : HealthState α × History α) : Prop where
  distinct : (x.1.listed.map Gateway.onion).Nodup
  kept : ∀ g ∈ x.1.listed, g.onion ∉ x.2.lost
  saved : x.1.healthFile = x.1.healthCache
  cached : ∀ onion ∉ x.2.lost, x.1.fails onion = failures (x.2.results onion)
  counted : ∀ g ∈ x.1.listed, Counted (x.2.results g.onion) g.health
  reflects : ∀ g ∈ x.1.listed, Reflects x.2 g

/-- Where nothing is listed, the cache is all there is to know. -/
lemma Evident.of_unlisted {x : HealthState α × History α} (hnone : x.1.listed = [])
    (hsaved : x.1.healthFile = x.1.healthCache)
    (hcached : ∀ onion ∉ x.2.lost, x.1.fails onion = failures (x.2.results onion)) : Evident x where
  distinct := by simp [hnone]
  kept := by simp [hnone]
  saved := hsaved
  cached := hcached
  counted := by simp [hnone]
  reflects := by simp [hnone]

lemma listed_initial (file : Option (Directory α Marks)) (cache healthFile : HealthCache) :
    (⟨.initial file, cache, healthFile⟩ : HealthState α).listed = [] := rfl

lemma freshHealth_evident (file : Option (Directory α Marks)) : Evident (freshHealth file) :=
  .of_unlisted (listed_initial file _ _) rfl fun _ _ => rfl

lemma restart_evident {x : HealthState α × History α} (h : Evident x) : Evident (x.1.restart, x.2) := by
  refine .of_unlisted (listed_initial _ _ _) rfl fun onion hkept => ?_
  rw [← h.cached onion hkept]
  exact congrArg (fun cache : HealthCache => ((cache.get onion).map HealthEntry.fails).getD 0) h.saved

/-! ### A refresh -/

/-- What a gateway starts a session with. -/
lemma seedEntry_health {cache : HealthCache} {g : Gateway α Marks} {n : ℕ} (hunmarked : g.health.fails = none)
    (hyoung : ∀ e, cache.get g.onion = some e → decayed H now e = false)
    (hfails : ((cache.get g.onion).map HealthEntry.fails).getD 0 = n) :
    (seedEntry H cache now g).health.fails.getD 0 = n ∧
      (seedEntry H cache now g).health.health = if HEALTH_FAIL_THRESHOLD ≤ n then down else g.health.health := by
  unfold seedEntry
  cases hget : cache.get g.onion with
  | none =>
    obtain rfl : 0 = n := by simpa [hget] using hfails
    simp [hunmarked, HEALTH_FAIL_THRESHOLD]
  | some e =>
    obtain rfl : e.fails = n := by simpa [hget] using hfails
    simp only [hyoung e hget, Bool.false_eq_true, if_false, and_true]
    split_ifs with hpos
    · rfl
    · rw [hunmarked]
      exact (Nat.eq_zero_of_not_pos hpos).symm

/-- What was signed for a gateway that agrees with its results. -/
lemma Agrees.reflects {results : List Bool} {m : Marks} (h : Agrees results m.health) (hunmarked : m.fails = none) :
    Counted results m ∧ (2 ≤ failures results → m.health = down) ∧ (results.getLast? = some true → m.health = up) := by
  rcases h with rfl | ⟨hlast, hup⟩ | ⟨htwo, hdown⟩
  · refine ⟨.inl (by rw [hunmarked]; rfl), fun htwo => absurd htwo (by decide), fun hlast => by simp at hlast⟩
  · have hzero := failures_of_success hlast
    exact ⟨.inl (by rw [hunmarked, hzero]; rfl), fun htwo => by omega, fun _ => hup⟩
  · refine ⟨.inr ⟨htwo, hdown⟩, fun _ => hdown, fun hlast => ?_⟩
    have hzero := failures_of_success hlast
    omega

/-- What is known of one gateway in the directory that a refresh put in memory. -/
lemma Reflects.of_marks {h : History α} {g : Gateway α Marks} {dir : Directory α Marks}
    (hadopted : h.adopted = some dir)
    (hdown : 2 ≤ failures (h.results g.onion) → g.health.health = down)
    (hup : (h.results g.onion).getLast? = some true → g.health.health = up)
    (hsigned : h.results g.onion = [] → ∃ g' ∈ dir.gateways.getD [], g'.onion = g.onion ∧
      g.health.health = g'.health.health) : Reflects h g :=
  ⟨hdown, hup, fun hnone => ⟨dir, hadopted, hsigned hnone⟩⟩

/-- The first directory of a session takes its marks from the cache. -/
lemma seeded_evident {x : HealthState α × History α} {s' : HealthState α} {dir : Directory α Marks} (h : Evident x)
    (hlisted : s'.listed = (dir.gateways.getD []).map (seedEntry H x.1.healthCache now))
    (hcache : s'.healthCache = x.1.healthCache) (hfile : s'.healthFile = x.1.healthFile)
    (hyoung : ∀ g ∈ dir.gateways.getD [], ∀ e, x.1.healthCache.get g.onion = some e → decayed H now e = false)
    (hnone : x.1.session.loaded = none) (htrace : Traceable x (dir.gateways.getD [])) :
    Evident (s', { x.2 with adopted := some dir }) := by
  have hmarks : ∀ g ∈ dir.gateways.getD [],
      (seedEntry H x.1.healthCache now g).health.fails.getD 0 = failures (x.2.results g.onion) ∧
      (seedEntry H x.1.healthCache now g).health.health =
        if HEALTH_FAIL_THRESHOLD ≤ failures (x.2.results g.onion) then down else g.health.health := fun g hg =>
    seedEntry_health (htrace.unmarked g hg) (hyoung g hg) (h.cached g.onion (htrace.kept g hg))
  have hmem : ∀ g ∈ s'.listed, ∃ g' ∈ dir.gateways.getD [], seedEntry H x.1.healthCache now g' = g := fun g hg =>
    List.mem_map.mp (hlisted ▸ hg)
  constructor
  · rw [hlisted, List.map_map, show Gateway.onion ∘ seedEntry H x.1.healthCache now = Gateway.onion from
      funext (seedEntry_onion _)]
    exact htrace.distinct
  · intro g hg
    obtain ⟨g', hg', rfl⟩ := hmem g hg
    rw [seedEntry_onion]
    exact htrace.kept g' hg'
  · rw [hfile, hcache, h.saved]
  · intro onion hkept
    rw [HealthState.fails, hcache]
    exact h.cached onion hkept
  · intro g hg
    obtain ⟨g', hg', rfl⟩ := hmem g hg
    rw [seedEntry_onion]
    exact .inl (hmarks g' hg').1
  · intro g hg
    obtain ⟨g', hg', rfl⟩ := hmem g hg
    have hhealth := (hmarks g' hg').2
    refine .of_marks rfl ?_ ?_ ?_
    all_goals rw [seedEntry_onion]
    · intro htwo
      exact hhealth.trans (if_pos htwo)
    · intro hlast
      rw [hhealth, failures_of_success hlast, if_neg (by decide)]
      exact htrace.first hnone g' hg' hlast
    · intro hundialed
      refine ⟨g', hg', rfl, ?_⟩
      rw [hhealth, hundialed, if_neg (by decide)]

/-- A later directory takes its marks from the one in memory. -/
lemma carried_evident {x : HealthState α × History α} {s' : HealthState α} {dir : Directory α Marks} (h : Evident x)
    (hlisted : s'.listed = carryHealth x.1.listed (dir.gateways.getD []))
    (hcache : s'.healthCache = x.1.healthCache) (hfile : s'.healthFile = x.1.healthFile)
    (hloaded : x.1.session.loaded ≠ none) (htrace : Traceable x (dir.gateways.getD [])) :
    Evident (s', { x.2 with adopted := some dir }) := by
  have honions : s'.listed.map Gateway.onion = (dir.gateways.getD []).map Gateway.onion := by
    rw [hlisted, carryHealth_onions]
  constructor
  · rw [honions]
    exact htrace.distinct
  · intro g hg
    obtain ⟨g', hg', hsame⟩ := List.mem_map.mp (honions ▸ List.mem_map_of_mem hg)
    exact hsame ▸ htrace.kept g' hg'
  · rw [hfile, hcache, h.saved]
  · intro onion hkept
    rw [HealthState.fails, hcache]
    exact h.cached onion hkept
  · intro g hg
    obtain ⟨g', hg', ⟨p, hp, hsame, rfl⟩ | ⟨hanew, rfl⟩⟩ := mem_carryHealth (hlisted ▸ hg)
    · exact hsame ▸ h.counted p hp
    · exact ((htrace.anew hloaded g hg' hanew).reflects (htrace.unmarked g hg')).1
  · intro g hg
    obtain ⟨g', hg', ⟨p, hp, hsame, rfl⟩ | ⟨hanew, rfl⟩⟩ := mem_carryHealth (hlisted ▸ hg)
    · have hp' := h.reflects p hp
      refine .of_marks rfl (hsame ▸ hp'.failed) (hsame ▸ hp'.succeeded) fun hundialed => ?_
      exact ⟨g', hg', rfl, htrace.still g' hg' p hp hsame hundialed⟩
    · obtain ⟨-, hdown, hup⟩ := (htrace.anew hloaded g hg' hanew).reflects (htrace.unmarked g hg')
      exact .of_marks rfl hdown hup fun _ => ⟨g, hg', rfl, rfl⟩

lemma refresh_evident {x : HealthState α × History α} {r : Refresh α Marks} (h : Evident x)
    (hcap : Persistent H C x.1 (.refresh r)) (htrace : Followed H C x (.refresh r)) :
    Evident (x.1.refresh H C r, x.2.next H C x.1 (.refresh r)) := by
  have hstep := refresh_listed (H := H) (C := C) (s := x.1) r
  have hfile : (x.1.refresh H C r).healthFile = x.1.healthFile := rfl
  simp only [History.next]
  cases hadopts : x.1.adopts H C r with
  | none =>
    rw [hadopts] at hstep
    obtain ⟨hlisted, hcache⟩ := hstep
    rw [Option.none_or]
    constructor
    · rw [hlisted]
      exact h.distinct
    · rw [hlisted]
      exact h.kept
    · rw [hfile, hcache, h.saved]
    · unfold HealthState.fails
      rw [hcache]
      exact h.cached
    · rw [hlisted]
      exact h.counted
    · rw [hlisted]
      exact h.reflects
  | some dir =>
    rw [hadopts] at hstep
    rw [Option.some_or]
    rcases hstep with ⟨hnone, hlisted, hcache⟩ | ⟨hloaded, hlisted, hcache⟩
    · have hyoung := hcap hnone dir hadopts
      refine seeded_evident h hlisted (hcache.trans (pruneCache_eq ?_)) hfile hyoung hnone (htrace dir hadopts)
      rw [hlisted]
      intro g hg
      obtain ⟨g', hg', rfl⟩ := List.mem_map.mp hg
      rw [seedEntry_onion]
      exact hyoung g' hg'
    · exact carried_evident h hlisted hcache hfile hloaded (htrace dir hadopts)

/-! ### A report -/

lemma update_fails (e : HealthEntry) (results : List Bool) (hfails : e.fails = failures results) :
    (e.update ok now).fails = failures (results ++ ok.toList) := by
  rcases ok with - | - | - <;> simp [HealthEntry.update, failures_snoc, hfails]

/-- The marks after a result. -/
lemma report_marks {results : List Bool} {m : Marks} (hcounted : Counted results m)
    (hdown : 2 ≤ failures results → m.health = down) (hup : results.getLast? = some true → m.health = up) :
    Counted (results ++ ok.toList) (m.report ok) ∧
      (2 ≤ failures (results ++ ok.toList) → (m.report ok).health = down) ∧
      ((results ++ ok.toList).getLast? = some true → (m.report ok).health = up) := by
  cases ok with
  | none =>
    rw [Option.toList_none, List.append_nil]
    exact ⟨hcounted, hdown, hup⟩
  | some ok =>
    rw [Option.toList_some, Counted, failures_snoc, List.getLast?_concat]
    cases ok with
    | true => exact ⟨.inl rfl, fun htwo => absurd htwo (by simp), fun _ => rfl⟩
    | false =>
      simp only [Bool.false_eq_true, if_false, Marks.report, Option.getD_some]
      rcases hcounted with hcount | ⟨htwo, hhealth⟩
      · rw [hcount]
        exact ⟨.inl rfl, fun htwo => if_pos htwo, nofun⟩
      · have hstays : (if 2 ≤ m.fails.getD 0 + 1 then down else m.health) = down := by
          split_ifs
          · rfl
          · exact hhealth
        exact ⟨.inr ⟨htwo.trans (Nat.le_succ _), hstays⟩, fun _ => hstays, nofun⟩

lemma next_results (h : History α) (s : HealthState α) (other : String) :
    (h.next H C s (.report onion ok now)).results other =
      if other = fullOnion onion then h.results other ++ ok.toList else h.results other := by
  cases ok with
  | none => simp [History.next]
  | some ok =>
    simp only [History.next, Function.update_apply]
    split_ifs with heq
    · rw [heq, Option.toList_some]
    · rfl

/-- A result is lost if it is reported while its gateway is not listed. -/
lemma mem_next_lost {h : History α} {s : HealthState α} {other : String} :
    other ∈ (h.next H C s (.report onion ok now)).lost ↔
      other ∈ h.lost ∨ other = fullOnion onion ∧ ok ≠ none ∧ other ∉ s.listed.map Gateway.onion := by
  cases ok with
  | none => simp [History.next]
  | some ok =>
    simp only [History.next]
    by_cases hmem : fullOnion onion ∈ s.listed.map Gateway.onion
    · rw [if_pos hmem]
      refine ⟨.inl, ?_⟩
      rintro (hlost | ⟨rfl, -, hunlisted⟩)
      · exact hlost
      · exact absurd hmem hunlisted
    · rw [if_neg hmem, List.mem_cons]
      constructor
      · rintro (rfl | hlost)
        · exact .inr ⟨rfl, by simp, hmem⟩
        · exact .inl hlost
      · rintro (hlost | ⟨rfl, -, -⟩)
        · exact .inr hlost
        · exact .inl rfl

lemma next_adopted (h : History α) (s : HealthState α) :
    (h.next H C s (.report onion ok now)).adopted = h.adopted := by
  cases ok <;> rfl

lemma report_evident {x : HealthState α × History α} (hpath : H.cachePath = true) (h : Evident x)
    (hcap : Persistent H C x.1 (.report onion ok now)) :
    Evident (x.1.reportResult H onion ok now, x.2.next H C x.1 (.report onion ok now)) := by
  have hlisted : (x.1.reportResult H onion ok now).listed = reportHealth (fullOnion onion) ok x.1.listed :=
    report_listed
  have honions : (x.1.reportResult H onion ok now).listed.map Gateway.onion = x.1.listed.map Gateway.onion := by
    rw [hlisted, reportHealth_onions]
  have hcache := report_cache hpath hcap
  -- the marks of one gateway before and after
  have hmarks : ∀ g ∈ (x.1.reportResult H onion ok now).listed, ∃ p ∈ x.1.listed, p.onion = g.onion ∧
      g.health = if g.onion = fullOnion onion then p.health.report ok else p.health := by
    intro g hg
    rcases mem_reportHealth h.distinct (hlisted ▸ hg) with ⟨hne, hmem⟩ | ⟨p, hp, hsame, rfl⟩
    · exact ⟨g, hmem, rfl, (if_neg hne).symm⟩
    · exact ⟨p, hp, rfl, (if_pos hsame).symm⟩
  have hreported : ∀ g ∈ (x.1.reportResult H onion ok now).listed,
      let results := (x.2.next H C x.1 (.report onion ok now)).results g.onion
      Counted results g.health ∧ (2 ≤ failures results → g.health.health = down) ∧
        (results.getLast? = some true → g.health.health = up) := by
    intro g hg
    obtain ⟨p, hp, hsame, hhealth⟩ := hmarks g hg
    have hcounted := h.counted p hp
    have hreflects := h.reflects p hp
    rw [hsame] at hcounted
    dsimp only
    rw [next_results, hhealth]
    split_ifs
    · exact report_marks hcounted (hsame ▸ hreflects.failed) (hsame ▸ hreflects.succeeded)
    · exact ⟨hcounted, hsame ▸ hreflects.failed, hsame ▸ hreflects.succeeded⟩
  constructor
  · rw [honions]
    exact h.distinct
  · intro g hg hlost
    obtain ⟨p, hp, hsame, -⟩ := hmarks g hg
    rw [← hsame] at hlost
    rcases mem_next_lost.mp hlost with hlost | ⟨-, -, hunlisted⟩
    · exact h.kept p hp hlost
    · exact hunlisted (List.mem_map_of_mem hp)
  · rcases hcache with ⟨-, -, hsaved⟩ | ⟨-, hsame, hfile⟩
    · exact hsaved
    · rw [hfile, hsame, h.saved]
  · intro other hkept
    rw [mem_next_lost, not_or] at hkept
    have hcached := h.cached other hkept.1
    rw [next_results]
    rcases hcache with ⟨-, hnoted, -⟩ | ⟨hunlisted, hsame, -⟩
    · rw [HealthState.fails, hnoted, noteResult]
      split_ifs with heq
      · rw [heq, OrderedMap.get_set_self]
        refine update_fails _ _ ?_
        rw [← heq, ← hcached, HealthState.fails]
        cases x.1.healthCache.get other <;> rfl
      · rw [OrderedMap.get_set_of_ne heq]
        exact hcached
    · rw [HealthState.fails, hsame]
      split_ifs with heq
      · obtain rfl : ok = none := by
          by_contra hok
          exact hkept.2 ⟨heq, hok, heq ▸ hunlisted⟩
        rw [Option.toList_none, List.append_nil]
        exact hcached
      · exact hcached
  · exact fun g hg => (hreported g hg).1
  · intro g hg
    obtain ⟨-, hdown, hup⟩ := hreported g hg
    obtain ⟨p, hp, hsame, hhealth⟩ := hmarks g hg
    refine ⟨hdown, hup, fun hundialed => ?_⟩
    rw [next_results] at hundialed
    rw [next_adopted, ← hsame]
    split_ifs at hundialed hhealth with heq
    · obtain ⟨hbefore, hno⟩ := List.append_eq_nil_iff.mp hundialed
      obtain rfl : ok = none := by simpa using hno
      rw [hhealth]
      exact (h.reflects p hp).signed (hsame ▸ hbefore)
    · rw [hhealth]
      exact (h.reflects p hp).signed (hsame ▸ hundialed)

/-- **Health reflects evidence.** While the persisted cache is enabled, below its cap and not decayed, and over
refreshes that meet the condition, every listed gateway is down after two failures in a row, up after a success, and as
the directory signs it while nothing was reported. -/
theorem health_reflects (H : HealthConfig) (C : Config α Marks) (file : Option (Directory α Marks))
    {tr : List (HealthEvent α)} {x : HealthState α × History α} (hpath : H.cachePath = true)
    (hrun : Run (Restrict (HealthStep H C) fun x e => Persistent H C x.1 e ∧ Followed H C x e)
      (freshHealth file) tr x) :
    ∀ g ∈ x.1.listed, Reflects x.2 g := by
  refine (hrun.invariant_state (I := Evident) (freshHealth_evident file) ?_).reflects
  rintro x e y hx ⟨⟨hcap, htrace⟩, rfl⟩
  cases e with
  | refresh r => exact refresh_evident hx hcap htrace
  | report onion ok now => exact report_evident hpath hx hcap
  | restart => exact restart_evident hx

end Events

/-! ### A gateway that was never dialed -/

/-- A client of a bootnode to whom every directory is signed. -/
def polledClient : Config Unit Marks where
  bootnodeOnion := true
  directoryPath := false
  cachePath := false
  refreshMs := 300000
  maxAgeMs := none
  maxAgeSkewMs := 300000
  verify := fun _ => none
  seedHealth := fun _ gateways => gateways

/-- The defaults of the code. -/
def healthDefaults : HealthConfig := ⟨true, 512, 14 * 24 * 60 * 60 * 1000⟩

def signedHealth (issued : ℚ) (health : Option Value) : Directory Unit Marks :=
  ⟨some issued, some [⟨"tree.onion", (), ⟨health, none⟩⟩]⟩

/-- A forced refresh that the bootnode answers with the gateway in this health. -/
def polledHealth (issued : ℚ) (health : Option Value) : HealthEvent Unit :=
  .refresh ⟨0, true, .ok (signedHealth issued health), .failed⟩

/-- The client and what happened after some events. -/
def healthAfter (events : List (HealthEvent Unit)) : HealthState Unit × History Unit :=
  events.foldl (fun x e => (x.1.next healthDefaults polledClient e, x.2.next healthDefaults polledClient x.1 e))
    (freshHealth none)

lemma healthAfter_snoc {D : HealthState Unit × History Unit → HealthEvent Unit → Prop}
    {events : List (HealthEvent Unit)} {e : HealthEvent Unit}
    (hrun : Run (Restrict (HealthStep healthDefaults polledClient) D) (freshHealth none) events (healthAfter events))
    (hD : D (healthAfter events) e) :
    Run (Restrict (HealthStep healthDefaults polledClient) D) (freshHealth none) (events ++ [e])
      (healthAfter (events ++ [e])) := by
  refine hrun.snoc ⟨hD, ?_⟩
  rw [HealthStep, healthAfter, List.foldl_append]
  rfl

/-- A gateway is signed as down and later as up.  Nothing was ever reported for it, and the client keeps it down. -/
theorem signed_health_kept :
    ¬ ∀ tr x, Run (Restrict (HealthStep healthDefaults polledClient)
      fun x e => Persistent healthDefaults polledClient x.1 e) (freshHealth none) tr x → ∀ g ∈ x.1.listed, Reflects x.2 g := by
  intro h
  have hrun := healthAfter_snoc (healthAfter_snoc .nil (e := polledHealth 10 down)
    (D := fun x e => Persistent healthDefaults polledClient x.1 e) fun _ _ _ _ _ _ he => nomatch he)
    (e := polledHealth 20 up) fun hnone => nomatch hnone
  have hkept : (healthAfter [polledHealth 10 down, polledHealth 20 up]).1.listed =
      [⟨"tree.onion", (), ⟨down, none⟩⟩] := rfl
  obtain ⟨dir, hdir, g', hg', -, hhealth⟩ := (h _ _ hrun ⟨"tree.onion", (), ⟨down, none⟩⟩
    (hkept ▸ List.mem_singleton_self _)).signed rfl
  obtain rfl : signedHealth 20 up = dir := Option.some.inj hdir
  obtain rfl := List.mem_singleton.mp hg'
  simp [up, down] at hhealth

/-- A gateway is signed as up, and two dials fail. -/
def failedTwice : List (HealthEvent Unit) :=
  [polledHealth 10 up, .report "tree" (some false) 1, .report "tree.onion" (some false) 2]

theorem health_reflects_failed :
    (healthAfter failedTwice).1.listed = [⟨"tree.onion", (), ⟨down, some 2⟩⟩] ∧
      Reflects (healthAfter failedTwice).2 ⟨"tree.onion", (), ⟨down, some 2⟩⟩ := by
  have hlisted : (healthAfter failedTwice).1.listed = [⟨"tree.onion", (), ⟨down, some 2⟩⟩] := rfl
  have hrun : Run (Restrict (HealthStep healthDefaults polledClient) fun x e =>
      Persistent healthDefaults polledClient x.1 e ∧ Followed healthDefaults polledClient x e)
      (freshHealth none) failedTwice (healthAfter failedTwice) := by
    refine healthAfter_snoc (healthAfter_snoc (healthAfter_snoc .nil (e := polledHealth 10 up) ?_) ?_) ?_
    · refine ⟨fun _ _ _ _ _ _ he => (nomatch he), fun dir hdir => ?_⟩
      obtain rfl : signedHealth 10 up = dir := Option.some.inj hdir
      refine ⟨List.nodup_singleton _, ?_, fun _ _ => List.not_mem_nil, fun _ _ _ hlast => ?_, ?_, fun hloaded => ?_⟩
      · intro g hg
        obtain rfl := List.mem_singleton.mp hg
        rfl
      · cases hlast
      · intro _ _ p hp
        cases hp
      · exact absurd rfl hloaded
    · exact ⟨show 1 ≤ 512 by decide, trivial⟩
    · exact ⟨show 1 ≤ 512 by decide, trivial⟩
  exact ⟨hlisted, health_reflects healthDefaults polledClient none rfl hrun _ (hlisted ▸ List.mem_singleton_self _)⟩

end ShadeTree.Client
