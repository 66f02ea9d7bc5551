import ShadeTree.Lib.Document
import ShadeTree.Lib.Paging
import ShadeTree.Roots.LogPages

/-!
# Logs read in windows, in the numbers of JavaScript (`fetchLogsChunked`, `fetchMemberLogs`)

`LogPages` counts blocks exactly; the source counts them in doubles.  Up to a last block below `2 ^ 53` that makes no
difference: reading ends, the windows that were answered make up the range, and the logs are those of `LogPages`.
At the last block `2 ^ 53` the cursor does not get behind it.
-/

namespace ShadeTree.Roots.LogWindows

open ShadeTree.Lib ShadeTree.Lib.Paging

/-- The numbers of the loop of `fetchLogsChunked`, for the last block `toBlock`. -/
def pager (toBlock : ℕ) : Pager where
  last cursor size := min toBlock (toDouble (toDouble (cursor + size) - 1))
  next last := toDouble (last + 1)
  shrink size := if size ≤ LOGS_CHUNK_FLOOR then none else some (max LOGS_CHUNK_FLOOR (size / 2))

section Fetch

variable (isLogRangeError : String → Bool) (getLogs : GetLogs)

/-- `fetchLogsChunked`, from the request of number `n` on; `accepted` is what `onChunk` is told. -/
def fetchLogsChunked (fuel n fromBlock toBlock chunk : ℕ) : Option (Outcome String Log) :=
  readRange (pager toBlock) isLogRangeError (fun n w => getLogs n w.first w.last) toBlock fuel n fromBlock (max 1 chunk) []

/-- `fetchMemberLogs` with both ends resolved to numbers. -/
def fetchMemberLogs (fuel chunk fromBlock toBlock : ℕ) : Option (Outcome String Log) :=
  if toBlock < fromBlock ∨ toDouble (toDouble (toBlock - fromBlock) + 1) ≤ chunk then
    match getLogs 0 fromBlock toBlock with
    | .ok single => some ⟨[(⟨fromBlock, toBlock⟩, single)], .ok single⟩
    | .error msg =>
      if isLogRangeError msg = false ∨ chunk ≤ LOGS_CHUNK_FLOOR then some ⟨[], .error msg⟩
      else fetchLogsChunked isLogRangeError getLogs fuel 1 fromBlock toBlock (max LOGS_CHUNK_FLOOR (chunk / 2))
  else fetchLogsChunked isLogRangeError getLogs fuel 0 fromBlock toBlock chunk

end Fetch

/-! ### Below `2 ^ 53` -/

lemma toDouble_of_lt {n : ℕ} (h : n < 2 ^ 53) : toDouble n = n := if_pos h

lemma toDouble_succ {n : ℕ} (h : n < 2 ^ 53) : toDouble (n + 1) = n + 1 := by
  rcases Nat.lt_or_ge (n + 1) (2 ^ 53) with hlt | hge
  · exact toDouble_of_lt hlt
  · obtain rfl : n = 2 ^ 53 - 1 := by omega
    decide

lemma pager_exact {toBlock : ℕ} (hto : toBlock < 2 ^ 53) : Exact (pager toBlock) toBlock 1 where
  pos := one_pos
  last cursor hcursor size hsize := by
    show min toBlock (toDouble (toDouble (cursor + size) - 1)) = _
    rcases Nat.lt_or_ge (cursor + size) (2 ^ 53) with hlt | hge
    · rw [toDouble_of_lt hlt, toDouble_of_lt (by omega)]
    · -- a window that ends behind all blocks is cut off at the last one
      have hround := le_toDouble hge
      have hend : toBlock ≤ toDouble (toDouble (cursor + size) - 1) := by
        rcases Nat.lt_or_ge (toDouble (cursor + size) - 1) (2 ^ 53) with h | h
        · rw [toDouble_of_lt h]
          omega
        · have := le_toDouble h
          omega
      omega
  next last hlast := toDouble_succ (by omega)
  shrink size smaller h := by
    by_cases hfloor : size ≤ LOGS_CHUNK_FLOOR
    · simp [pager, hfloor] at h
    · have hsmaller : max LOGS_CHUNK_FLOOR (size / 2) = smaller := by simpa [pager, hfloor] using h
      unfold LOGS_CHUNK_FLOOR at hfloor hsmaller
      omega

section Covers

variable {isLogRangeError : String → Bool} {getLogs : GetLogs} {fuel n fromBlock toBlock chunk : ℕ} {o : Outcome String Log}

/-- What a success shows: the windows that were answered make up the range, the logs are their answers, and where the
answers are true, the logs of the range in their order. -/
def Covers (getLogs : GetLogs) (fromBlock toBlock : ℕ) (o : Outcome String Log) : Prop :=
  ∀ logs, o.result = .ok logs →
    Tiles ⟨fromBlock, toBlock⟩ (o.accepted.map Prod.fst) ∧
    (∀ p ∈ o.accepted, ∃ n, getLogs n p.1.first p.1.last = .ok p.2) ∧
    logs = o.accepted.flatMap Prod.snd ∧
    ∀ chain : List Log, (chain.Pairwise fun l m => l.blockNumber ≤ m.blockNumber) →
      (∀ n a b part, getLogs n a b = .ok part → part = between chain a b) → logs = between chain fromBlock toBlock

lemma covers_of_tiles (h : ∀ logs, o.result = .ok logs →
    Tiles ⟨fromBlock, toBlock⟩ (o.accepted.map Prod.fst) ∧
    (∀ p ∈ o.accepted, ∃ n, getLogs n p.1.first p.1.last = .ok p.2) ∧
    logs = o.accepted.flatMap Prod.snd) : Covers getLogs fromBlock toBlock o := by
  intro logs hok
  obtain ⟨htiles, hasked, hlogs⟩ := h logs hok
  refine ⟨htiles, hasked, hlogs, fun chain hsorted htrue => ?_⟩
  have hparts : o.accepted.flatMap Prod.snd =
      (o.accepted.map Prod.fst).flatMap (within Log.blockNumber chain) := by
    rw [List.flatMap_map]
    refine List.flatMap_congr fun p hp => ?_
    obtain ⟨n, hn⟩ := hasked p hp
    exact htrue n _ _ _ hn
  rw [hlogs, hparts, htiles.within_eq hsorted]
  rfl

lemma fetchLogsChunked_covers (hto : toBlock < 2 ^ 53)
    (h : fetchLogsChunked isLogRangeError getLogs fuel n fromBlock toBlock chunk = some o) : Covers getLogs fromBlock toBlock o := by
  refine covers_of_tiles fun logs hok => ?_
  obtain ⟨pages, hpages, htiles, hasked, hlogs⟩ := readRange_tiles (pager_exact hto) (le_max_left 1 chunk) h hok
  rw [List.nil_append] at hpages
  rw [hpages] at hlogs ⊢
  exact ⟨htiles, fun p hp => (hasked p hp).2, hlogs⟩

lemma fetchLogsChunked_ends (isLogRangeError : String → Bool) (getLogs : GetLogs) (n fromBlock chunk : ℕ)
    (hto : toBlock < 2 ^ 53) : ∃ fuel o, fetchLogsChunked isLogRangeError getLogs fuel n fromBlock toBlock chunk = some o :=
  ⟨_, readRange_ends (pager_exact hto) (le_max_left 1 chunk) le_rfl⟩

end Covers

/-- **Reading in windows.** Up to a last block below `2 ^ 53`, whatever is answered or refused, `fetchLogsChunked` and
`fetchMemberLogs` end, and what they return covers the range. -/
theorem fetchMemberLogs_covers (isLogRangeError : String → Bool) (getLogs : GetLogs) (chunk fromBlock toBlock : ℕ)
    (hto : toBlock < 2 ^ 53) :
    (∀ n, ∃ fuel o, fetchLogsChunked isLogRangeError getLogs fuel n fromBlock toBlock chunk = some o ∧
      Covers getLogs fromBlock toBlock o) ∧
    ∃ fuel o, fetchMemberLogs isLogRangeError getLogs fuel chunk fromBlock toBlock = some o ∧ Covers getLogs fromBlock toBlock o := by
  have hchunked : ∀ n chunk, ∃ fuel o, fetchLogsChunked isLogRangeError getLogs fuel n fromBlock toBlock chunk = some o ∧
      Covers getLogs fromBlock toBlock o := by
    intro n chunk
    obtain ⟨fuel, o, ho⟩ := fetchLogsChunked_ends isLogRangeError getLogs n fromBlock chunk hto
    exact ⟨fuel, o, ho, fetchLogsChunked_covers hto ho⟩
  refine ⟨fun n => hchunked n chunk, ?_⟩
  by_cases hsingle : toBlock < fromBlock ∨ toDouble (toDouble (toBlock - fromBlock) + 1) ≤ chunk
  · simp only [fetchMemberLogs, if_pos hsingle]
    cases hget : getLogs 0 fromBlock toBlock with
    | ok single =>
      refine ⟨0, _, rfl, covers_of_tiles fun logs hok => ⟨?_, ?_, ?_⟩⟩
      · exact List.append_nil _
      · rintro p hp
        rw [List.mem_singleton] at hp
        exact ⟨0, by rw [hp, hget]⟩
      · simpa using (Except.ok.inj hok).symm
    | error msg =>
      by_cases hstop : isLogRangeError msg = false ∨ chunk ≤ LOGS_CHUNK_FLOOR
      · simp only [if_pos hstop]
        exact ⟨0, _, rfl, fun logs hok => by cases hok⟩
      · simp only [if_neg hstop]
        exact hchunked 1 _
  · simp only [fetchMemberLogs, if_neg hsingle]
    exact hchunked 0 chunk

/-- The single block `2 ^ 53 - 1`, and a range of two windows with a refusal in between. -/
theorem fetchMemberLogs_covers_last :
    ∃ fuel o, fetchMemberLogs (fun _ => true) (fun n _ _ => if n = 1 then .error "block range" else .ok []) fuel 10000
      (2 ^ 53 - 15000) (2 ^ 53 - 1) = some o ∧ Covers (fun n _ _ => if n = 1 then .error "block range" else .ok [])
        (2 ^ 53 - 15000) (2 ^ 53 - 1) o :=
  (fetchMemberLogs_covers _ _ 10000 (2 ^ 53 - 15000) (2 ^ 53 - 1) (by decide)).2

/-- At the last block `2 ^ 53` the cursor stays on it: on answers to all requests the loop never ends. -/
theorem fetchMemberLogs_never_ends : ¬ ∃ fuel outcome,
    fetchMemberLogs (fun _ => false) (fun _ _ _ => .ok []) fuel 10000 (2 ^ 53 - 20000) (2 ^ 53) = some outcome := by
  rintro ⟨fuel, outcome, h⟩
  refine absurd h (ne_of_eq_of_ne ?_ (Option.some_ne_none outcome).symm)
  have hlast : toDouble (2 ^ 53 + 1) ≤ 2 ^ 53 := by decide
  have hwide : ¬((2 : ℕ) ^ 53 < 2 ^ 53 - 20000 ∨ toDouble (toDouble (2 ^ 53 - (2 ^ 53 - 20000)) + 1) ≤ 10000) := by
    decide
  rw [fetchMemberLogs, if_neg hwide]
  refine readRange_none (fun cursor size _ => ?_) (fun _ _ => ⟨[], rfl⟩) (by decide)
  show toDouble (min (2 ^ 53) _ + 1) ≤ 2 ^ 53
  rcases Nat.lt_or_ge (toDouble (toDouble (cursor + size) - 1)) (2 ^ 53) with hlt | hge
  · rw [min_eq_right hlt.le, toDouble_succ hlt]
    exact hlt
  · rw [min_eq_left hge]
    exact hlast

/-! ### The logs of `LogPages` -/

section Same

variable {isLogRangeError : String → Bool} {getLogs : GetLogs} {fuel n fromBlock toBlock chunk : ℕ}
  {o : Outcome String Log}

/-- With exact numbers the loop returns what it returns in `LogPages`. -/
lemma readRange_result (hto : toBlock < 2 ^ 53) {cursor size : ℕ} (hsize : 0 < size)
    {accepted : List (Window × List Log)}
    (h : readRange (pager toBlock) isLogRangeError (fun n w => getLogs n w.first w.last) toBlock fuel n cursor size accepted =
      some o) :
    o.result = Roots.fetchLogsChunked isLogRangeError getLogs toBlock n cursor size hsize
      (accepted.flatMap Prod.snd) := by
  induction fuel generalizing n cursor size accepted with
  | zero =>
    rw [readRange] at h
    split at h
    · cases h
    · next hend =>
      obtain rfl := Option.some.inj h
      rw [Roots.fetchLogsChunked, dif_neg hend]
  | succ fuel ih =>
    rw [readRange] at h
    rw [Roots.fetchLogsChunked]
    split at h
    · next hcursor =>
      have hlast := (pager_exact hto).last cursor hcursor size hsize
      rw [hlast, (pager_exact hto).next _ (by omega)] at h
      rw [dif_pos hcursor]
      cases hget : getLogs n cursor (min toBlock (cursor + size - 1)) with
      | ok part =>
        simp only [hget] at h ⊢
        simpa using ih hsize h
      | error msg =>
        simp only [hget] at h ⊢
        by_cases hstop : isLogRangeError msg = false ∨ size ≤ LOGS_CHUNK_FLOOR
        · rw [dif_pos hstop]
          rcases hstop with hother | hfloor
          · simp only [hother] at h
            rw [← Option.some.inj h]
          · simp only [pager, if_pos hfloor, ite_self] at h
            rw [← Option.some.inj h]
        · rw [dif_neg hstop]
          obtain ⟨hwide, hfloor⟩ := not_or.mp hstop
          simp only [Bool.not_eq_false] at hwide
          simp only [hwide, pager, if_neg hfloor, if_true] at h
          exact ih _ h
    · next hend =>
      obtain rfl := Option.some.inj h
      rw [dif_neg hend]

/-- **The same logs.** Up to a last block below `2 ^ 53` the doubles change nothing. -/
theorem fetchMemberLogs_result (hto : toBlock < 2 ^ 53)
    (h : fetchMemberLogs isLogRangeError getLogs fuel chunk fromBlock toBlock = some o) :
    o.result = Roots.fetchMemberLogs isLogRangeError getLogs chunk fromBlock toBlock := by
  have hsingle : (toBlock < fromBlock ∨ toDouble (toDouble (toBlock - fromBlock) + 1) ≤ chunk) ↔
      toBlock + 1 ≤ fromBlock + chunk := by
    rw [toDouble_of_lt (show toBlock - fromBlock < 2 ^ 53 by omega), toDouble_succ (by omega)]
    omega
  unfold fetchMemberLogs at h
  unfold Roots.fetchMemberLogs
  by_cases hone : toBlock + 1 ≤ fromBlock + chunk
  · rw [if_pos (hsingle.mpr hone)] at h
    rw [if_pos hone]
    cases hget : getLogs 0 fromBlock toBlock with
    | ok single =>
      simp only [hget] at h ⊢
      rw [← Option.some.inj h]
    | error msg =>
      simp only [hget] at h ⊢
      split at h
      · next hstop =>
        rw [if_pos hstop, ← Option.some.inj h]
      · next hstop =>
        rw [if_neg hstop]
        have hmax : max 1 (max LOGS_CHUNK_FLOOR (chunk / 2)) = max LOGS_CHUNK_FLOOR (chunk / 2) :=
          max_eq_right (le_max_of_le_left (by decide))
        simpa only [hmax, List.flatMap_nil] using readRange_result hto (lt_max_of_lt_left one_pos) h
  · rw [if_neg (mt hsingle.mp hone)] at h
    rw [if_neg hone]
    exact readRange_result hto _ h

end Same

end ShadeTree.Roots.LogWindows
