import ShadeTree.Roots.Reconstruct

/-!
# Logs read in pages (`fetchMemberLogs` in `lib/root-provider.mjs`)

Public RPCs limit how many blocks or logs one `eth_getLogs` may ask for.  The range is read in windows; a window
that is refused as too wide is halved and asked for again.  Whatever is refused on the way, what comes back is the
logs of the range, each once.
-/

namespace ShadeTree.Roots

/-- The logs of the blocks from `a` to `b`. -/
def between (chain : List Log) (a b : ℕ) : List Log :=
  chain.filter fun l => decide (a ≤ l.blockNumber ∧ l.blockNumber ≤ b)

def LOGS_CHUNK_FLOOR : ℕ := 8

/-- The answers of `eth_getLogs`: to the request of that number, for a range of blocks. -/
abbrev GetLogs := ℕ → ℕ → ℕ → Except String (List Log)

section Fetch

variable (isLogRangeError : String → Bool) (getLogs : GetLogs)

/-- `fetchLogsChunked`, from the request of number `n` on. -/
def fetchLogsChunked (toBlock n cursor size : ℕ) (hsize : 0 < size) (out : List Log) : Except String (List Log) :=
  if hto : cursor ≤ toBlock then
    match getLogs n cursor (min toBlock (cursor + size - 1)) with
    | .ok part => fetchLogsChunked toBlock (n + 1) (min toBlock (cursor + size - 1) + 1) size hsize (out ++ part)
    | .error msg =>
      if hstop : isLogRangeError msg = false ∨ size ≤ LOGS_CHUNK_FLOOR then .error msg
      else fetchLogsChunked toBlock (n + 1) cursor (max LOGS_CHUNK_FLOOR (size / 2)) (lt_max_of_lt_left (by decide)) out
  else .ok out
termination_by (toBlock + 1 - cursor) + size
decreasing_by
  · omega
  · have hfloor : LOGS_CHUNK_FLOOR < size := by omega
    have : max LOGS_CHUNK_FLOOR (size / 2) < size := max_lt hfloor (by omega)
    omega

/-- `fetchMemberLogs` with both ends resolved to numbers. -/
def fetchMemberLogs (chunk fromBlock toBlock : ℕ) : Except String (List Log) :=
  if toBlock + 1 ≤ fromBlock + chunk then
    match getLogs 0 fromBlock toBlock with
    | .ok single => .ok single
    | .error msg =>
      if isLogRangeError msg = false ∨ chunk ≤ LOGS_CHUNK_FLOOR then .error msg
      else fetchLogsChunked isLogRangeError getLogs toBlock 1 fromBlock (max LOGS_CHUNK_FLOOR (chunk / 2))
        (lt_max_of_lt_left (by decide)) []
  else fetchLogsChunked isLogRangeError getLogs toBlock 0 fromBlock (max 1 chunk) (lt_max_of_lt_left (by decide)) []

end Fetch

/-- Every range that is answered is answered with its logs, in any order. -/
def Answers (chain : List Log) (getLogs : GetLogs) : Prop :=
  ∀ n a b logs, getLogs n a b = .ok logs → logs.Perm (between chain a b)

section Between

variable {chain : List Log} {a b c : ℕ}

lemma mem_between {l : Log} : l ∈ between chain a b ↔ l ∈ chain ∧ a ≤ l.blockNumber ∧ l.blockNumber ≤ b := by
  simp [between]

lemma between_empty (h : b < a) : between chain a b = [] := by
  refine List.filter_eq_nil_iff.mpr fun l _ hl => ?_
  have := of_decide_eq_true hl
  omega

/-- Two ranges next to each other, where no log is missed or taken twice. -/
lemma between_append (hab : a ≤ b + 1 ∨ ∀ l ∈ chain, a ≤ l.blockNumber) (hbc : b ≤ c) :
    (between chain a b ++ between chain (b + 1) c).Perm (between chain a c) := by
  have hleft : between chain a b = (between chain a c).filter fun l => decide (l.blockNumber ≤ b) := by
    unfold between
    rw [List.filter_filter]
    refine List.filter_congr fun l _ => ?_
    simp only [← Bool.decide_and, decide_eq_decide]
    omega
  have hright : between chain (b + 1) c = (between chain a c).filter fun l => !decide (l.blockNumber ≤ b) := by
    unfold between
    rw [List.filter_filter]
    refine List.filter_congr fun l hl => ?_
    have hle : b < l.blockNumber → a ≤ l.blockNumber := by
      rcases hab with hab | hall
      · omega
      · exact fun _ => hall l hl
    simp only [← decide_not, ← Bool.decide_and, decide_eq_decide]
    omega
  rw [hleft, hright]
  exact List.filter_append_perm _ _

end Between

section Pages

variable {isLogRangeError : String → Bool} {getLogs : GetLogs} {chain : List Log}

lemma fetchLogsChunked_perm (hgets : Answers chain getLogs) {toBlock n cursor size : ℕ} {hsize : 0 < size}
    {out logs : List Log} (h : fetchLogsChunked isLogRangeError getLogs toBlock n cursor size hsize out = .ok logs) :
    logs.Perm (out ++ between chain cursor toBlock) := by
  fun_induction fetchLogsChunked isLogRangeError getLogs toBlock n cursor size hsize out with
  | case1 n cursor size hsize out hto part hget ih =>
    have hpart := hgets _ _ _ _ hget
    have hsplit : (between chain cursor (min toBlock (cursor + size - 1)) ++
        between chain (min toBlock (cursor + size - 1) + 1) toBlock).Perm (between chain cursor toBlock) :=
      between_append (.inl (by omega)) (by omega)
    calc logs.Perm ((out ++ part) ++ between chain (min toBlock (cursor + size - 1) + 1) toBlock) := ih h
      _ = (out ++ (part ++ between chain (min toBlock (cursor + size - 1) + 1) toBlock)) := List.append_assoc _ _ _
      List.Perm _ (out ++ between chain cursor toBlock) := ((hpart.append_right _).trans hsplit).append_left out
  | case2 => cases h
  | case3 n cursor size hsize out hto msg hget hgo ih => exact ih h
  | case4 n cursor size hsize out hto =>
    obtain rfl := Except.ok.inj h
    rw [between_empty (by omega), List.append_nil]

/-- **The pages** make up the range. -/
lemma fetchMemberLogs_perm (hgets : Answers chain getLogs) {chunk a b : ℕ} {logs : List Log}
    (h : fetchMemberLogs isLogRangeError getLogs chunk a b = .ok logs) : logs.Perm (between chain a b) := by
  unfold fetchMemberLogs at h
  split at h
  · split at h
    · next single hget =>
      obtain rfl := Except.ok.inj h
      exact hgets _ _ _ _ hget
    · split at h
      · cases h
      · simpa using fetchLogsChunked_perm hgets h
  · simpa using fetchLogsChunked_perm hgets h

end Pages

end ShadeTree.Roots
