import ShadeTree.Lib.Run
import ShadeTree.Proto.Directory

/-!
# The last known good directory (`resolve_directory` in `shade-tree-client/src/dircache.rs`)

A fetched directory is used if pinned keys signed it, if it is not issued before the one in the cache, and if it is not
too old; it then replaces the one in the cache.  Otherwise the one in the cache is used, however old it is, if pinned
keys signed it.  Reading the text of a directory is left to a parameter; numbers are of 64 bits and a sum wraps, as in
a release build.
-/

namespace ShadeTree.Native.DirCache

open ShadeTree.Lib

/-- `DemoAdvert`. -/
structure DemoAdvert where
  port : UInt16
  pow_bits : UInt32
  limit : UInt64
  contract : String
  chain : String
  gateways : List String
  onion : Option String

structure DirectoryDocument where
  dir : Proto.Directory
  demo : Option DemoAdvert

/-- Where an accepted directory came from. -/
inductive Source where
  | Fresh | Cache
  deriving DecidableEq

structure LoadOutcome where
  dir : Proto.Directory
  demo : Option DemoAdvert
  source : Source
  fresh_error : Option String

structure MaxAge where
  max_age_ms : Option UInt64
  skew_ms : UInt64

/-! ### The list of pins -/

/-- The white space of `trim`. -/
def is_whitespace (c : Char) : Bool :=
  (9 ≤ c.toNat && c.toNat ≤ 13) || c.toNat ∈ [32, 133, 160, 5760, 8232, 8233, 8239, 8287, 12288] ||
    (8192 ≤ c.toNat && c.toNat ≤ 8202)

def trim (s : List Char) : List Char := ((s.dropWhile is_whitespace).reverse.dropWhile is_whitespace).reverse

/-- `signers.split(',').map(str::trim).filter(|s| !s.is_empty())`. -/
def pins_of (signers : String) : List String :=
  (((signers.toList.splitOn ',').map trim).filter fun pin => pin ≠ []).map String.ofList

/-! ### Numbers -/

def saturating_sub (a b : UInt64) : UInt64 := if a < b then 0 else a - b

def saturating_mul (a b : UInt64) : UInt64 := UInt64.ofNat (min (a.toNat * b.toNat) (2 ^ 64 - 1))

/-- The age of a directory in milliseconds. -/
def age_ms (now_ms issued : UInt64) : UInt64 := saturating_sub now_ms (saturating_mul issued 1000)

def num_text (n : UInt64) : String := String.ofList (Proto.numText n)

section Resolve

variable {Path : Type} [DecidableEq Path]

/-- The files with their texts; none where there is none that can be read. -/
abbrev Files (Path : Type) := Path → Option String

variable (parse_document : String → Except String DirectoryDocument) (S : Proto.Schemes)

def parse_and_verify_document (raw signers : String) : Except String DirectoryDocument :=
  match parse_document raw with
  | .error e => .error e
  | .ok document =>
    match Proto.verifyDirectoryWithSigners S document.dir (pins_of signers) with
    | .error e => .error ("directory rejected: " ++ e)
    | .ok _ => .ok document

def read_verified_cache (files : Files Path) (cache_path : Option Path) (signer : String) : Option DirectoryDocument :=
  match cache_path.bind files with
  | none => none
  | some raw => (parse_and_verify_document parse_document S raw signer).toOption

/-- `write_cache`, which succeeds. -/
def write_cache (files : Files Path) (cache_path : Option Path) (raw : String) : Files Path :=
  match cache_path with
  | none => files
  | some path => Function.update files path (some (if raw.toList.getLast? = some '\n' then raw else raw ++ "\n"))

/-- What is done without a fresh directory. -/
def fall_back (cached : Option DirectoryDocument) (fresh_reject : String) : Except String LoadOutcome :=
  match cached with
  | some document => .ok ⟨document.dir, document.demo, .Cache, some fresh_reject⟩
  | none => .error ("no verifiable directory (fresh: " ++ fresh_reject ++ "; no valid cache)")

/-- `resolve_directory`, with the files after it. -/
def resolve_directory (files : Files Path) (fresh : Except String String) (cache_path : Option Path) (signer : String)
    (max_age : MaxAge) (now_ms : UInt64) : Files Path × Except String LoadOutcome :=
  let cached := read_verified_cache parse_document S files cache_path signer
  let floor := (cached.map fun d => d.dir.issued).getD 0
  match fresh with
  | .error e => (files, fall_back cached e)
  | .ok raw =>
    match parse_and_verify_document parse_document S raw signer with
    | .error e => (files, fall_back cached e)
    | .ok document =>
      let dir := document.dir
      if dir.issued < floor then
        (files, fall_back cached ("directory rollback rejected: issued " ++ num_text dir.issued ++ " < cached " ++
          num_text floor))
      else
        match max_age.max_age_ms with
        | some max =>
          if max + max_age.skew_ms < age_ms now_ms dir.issued then
            (files, fall_back cached ("directory too stale: issued " ++ num_text dir.issued ++ "s is " ++
              num_text (age_ms now_ms dir.issued / 1000) ++ "s old > max-age " ++
              num_text ((max + max_age.skew_ms) / 1000) ++ "s (bound+skew)"))
          else (write_cache files cache_path raw, .ok ⟨dir, document.demo, .Fresh, none⟩)
        | none => (write_cache files cache_path raw, .ok ⟨dir, document.demo, .Fresh, none⟩)

/-! ### Calls, one after the other -/

/-- What a call is given beside the cache and the pins. -/
structure Call where
  fresh : Except String String
  max_age : MaxAge
  now_ms : UInt64

abbrev Answer := Except String LoadOutcome

/-- The calls on the cache at one path, with the same pins. -/
def resolving (path : Path) (signer : String) : Files Path → Call × Answer → Files Path → Prop :=
  ofFun fun files call =>
    resolve_directory parse_document S files call.fresh (some path) signer call.max_age call.now_ms

/-- The directory is not older than the call allows. -/
def Call.Young (call : Call) (dir : Proto.Directory) : Prop :=
  ∀ max, call.max_age.max_age_ms = some max →
    call.now_ms.toNat ≤ dir.issued.toNat * 1000 + (max.toNat + call.max_age.skew_ms.toNat)

/-- The answer is the directory that was fetched. -/
def IsFresh (answer : Answer) : Prop := ∃ out, answer = .ok out ∧ out.source = .Fresh

/-- The directory is what the calls before accepted, or what the cache held at first. -/
def Known (files : Files Path) (path : Path) (signer : String) (tr : List (Call × Answer)) (dir : Proto.Directory) :
    Prop :=
  (∃ document, read_verified_cache parse_document S files (some path) signer = some document ∧ document.dir = dir) ∨
    ∃ e ∈ tr, ∃ out, e.2 = .ok out ∧ out.source = .Fresh ∧ out.dir = dir

/-- The times of issue of what the cache held at first and of what was returned. -/
def issuedOf (files : Files Path) (path : Path) (signer : String) (tr : List (Call × Answer)) : List UInt64 :=
  (read_verified_cache parse_document S files (some path) signer).toList.map (fun document => document.dir.issued) ++
    tr.filterMap fun e => e.2.toOption.map fun out => out.dir.issued

/-- What is returned was signed by pinned keys and is not issued before what was returned earlier.  If it was fetched it
is young enough, and if it was not it was accepted before. -/
structure Guarded (files : Files Path) (path : Path) (signer : String) (tr : List (Call × Answer)) : Prop where
  signed : ∀ e ∈ tr, ∀ out, e.2 = .ok out →
    ∃ keys, Proto.verifyDirectoryWithSigners S out.dir (pins_of signer) = .ok keys
  young : ∀ e ∈ tr, ∀ out, e.2 = .ok out → out.source = .Fresh → e.1.Young out.dir
  known : ∀ before e after, tr = before ++ e :: after → ∀ out, e.2 = .ok out → out.source = .Cache →
    Known parse_document S files path signer before out.dir
  issued : (issuedOf parse_document S files path signer tr).Pairwise (· ≤ ·)

end Resolve

/-! ### One call -/

section Calls

variable {Path : Type} {parse_document : String → Except String DirectoryDocument}
  {S : Proto.Schemes} {files files' : Files Path} {path : Path} {signer : String} {call : Call} {answer : Answer}
  {tr : List (Call × Answer)}

lemma toNat_saturating_sub (a b : UInt64) : (saturating_sub a b).toNat = a.toNat - b.toNat := by
  unfold saturating_sub
  split_ifs with hlt
  · have : a.toNat < b.toNat := UInt64.lt_iff_toNat_lt.mp hlt
    rw [Nat.sub_eq_zero_of_le this.le]
    rfl
  · exact UInt64.toNat_sub_of_le _ _ (UInt64.not_lt.mp hlt)

lemma toNat_saturating_mul_le (a b : UInt64) : (saturating_mul a b).toNat ≤ a.toNat * b.toNat := by
  have hlt : min (a.toNat * b.toNat) (2 ^ 64 - 1) < UInt64.size := by
    rw [show UInt64.size = 2 ^ 64 from rfl]
    omega
  rw [saturating_mul, UInt64.toNat_ofNat_of_lt' hlt]
  exact min_le_left _ _

/-- A directory that is not refused as too old is young, also when the sum of the bounds wraps. -/
lemma young_of_not_stale {dir : Proto.Directory} {max : UInt64} (hmax : call.max_age.max_age_ms = some max)
    (h : ¬ max + call.max_age.skew_ms < age_ms call.now_ms dir.issued) : call.Young dir := by
  intro max' hmax'
  obtain rfl : max = max' := Option.some.inj (hmax.symm.trans hmax')
  have hage := UInt64.le_iff_toNat_le.mp (UInt64.not_lt.mp h)
  rw [age_ms, toNat_saturating_sub, UInt64.toNat_add] at hage
  have hmul := toNat_saturating_mul_le dir.issued 1000
  have hthousand : (1000 : UInt64).toNat = 1000 := rfl
  have hmod := Nat.mod_le (max.toNat + call.max_age.skew_ms.toNat) (2 ^ 64)
  rw [hthousand] at hmul
  omega

lemma verified_of_parse {raw : String} {document : DirectoryDocument}
    (h : parse_and_verify_document parse_document S raw signer = .ok document) :
    parse_document raw = .ok document ∧
      ∃ keys, Proto.verifyDirectoryWithSigners S document.dir (pins_of signer) = .ok keys := by
  unfold parse_and_verify_document at h
  cases hparse : parse_document raw with
  | error e => simp [hparse] at h
  | ok document' =>
    simp only [hparse] at h
    cases hverify : Proto.verifyDirectoryWithSigners S document'.dir (pins_of signer) with
    | error e => simp [hverify] at h
    | ok keys =>
      rw [hverify] at h
      obtain rfl := Except.ok.inj h
      exact ⟨rfl, keys, hverify⟩

variable (parse_document S files files' path signer call answer) in
/-- The call returns the fetched directory and leaves it in the cache. -/
structure Accepts (document : DirectoryDocument) : Prop where
  signed : ∃ keys, Proto.verifyDirectoryWithSigners S document.dir (pins_of signer) = .ok keys
  floor : ∀ cached, read_verified_cache parse_document S files (some path) signer = some cached →
    cached.dir.issued ≤ document.dir.issued
  young : call.Young document.dir
  answer_eq : answer = .ok ⟨document.dir, document.demo, .Fresh, none⟩
  written : read_verified_cache parse_document S files' (some path) signer = some document

/-! ### One more answer -/

lemma issuedOf_snoc (e : Call × Answer) : issuedOf parse_document S files path signer (tr ++ [e]) =
    issuedOf parse_document S files path signer tr ++ (e.2.toOption.map fun out => out.dir.issued).toList := by
  have hlast : ([e].filterMap fun e => e.2.toOption.map fun out => out.dir.issued) =
      (e.2.toOption.map fun out => out.dir.issued).toList := by
    cases hissued : e.2.toOption.map fun out => out.dir.issued <;> simp [hissued]
  rw [issuedOf, List.filterMap_append, hlast, issuedOf, List.append_assoc]

lemma Known.mono {dir : Proto.Directory} (h : Known parse_document S files path signer tr dir) (e : Call × Answer) :
    Known parse_document S files path signer (tr ++ [e]) dir := by
  rcases h with hfirst | ⟨e', he', out, hout⟩
  · exact .inl hfirst
  · exact .inr ⟨e', List.mem_append_left _ he', out, hout⟩

/-- One more answer. -/
lemma Guarded.snoc (h : Guarded parse_document S files path signer tr) {e : Call × Answer}
    (hsigned : ∀ out, e.2 = .ok out →
      ∃ keys, Proto.verifyDirectoryWithSigners S out.dir (pins_of signer) = .ok keys)
    (hyoung : ∀ out, e.2 = .ok out → out.source = .Fresh → e.1.Young out.dir)
    (hknown : ∀ out, e.2 = .ok out → out.source = .Cache → Known parse_document S files path signer tr out.dir)
    (hissued : ∀ out, e.2 = .ok out → ∀ x ∈ issuedOf parse_document S files path signer tr, x ≤ out.dir.issued) :
    Guarded parse_document S files path signer (tr ++ [e]) := by
  refine ⟨fun e' he' => ?_, fun e' he' => ?_, fun before e' after heq => ?_, ?_⟩
  · rcases List.mem_append.mp he' with hold | hnew
    · exact h.signed e' hold
    · exact List.mem_singleton.mp hnew ▸ hsigned
  · rcases List.mem_append.mp he' with hold | hnew
    · exact h.young e' hold
    · exact List.mem_singleton.mp hnew ▸ hyoung
  · rcases List.eq_nil_or_concat after with rfl | ⟨after, e'', rfl⟩
    · obtain ⟨rfl, hlast⟩ := List.append_inj' heq rfl
      exact List.singleton_inj.mp hlast ▸ hknown
    · rw [List.concat_eq_append, ← List.cons_append, ← List.append_assoc] at heq
      exact h.known before e' after (List.append_inj' heq rfl).1
  · rw [issuedOf_snoc, List.pairwise_append]
    refine ⟨h.issued, ?_, fun x hx y hy => ?_⟩
    · cases e.2.toOption <;> simp
    · cases hanswer : e.2 with
      | error why => simp [hanswer, Except.toOption] at hy
      | ok out =>
        obtain rfl : y = out.dir.issued := by simpa [hanswer, Except.toOption] using hy
        exact hissued out hanswer x hx

variable (parse_document S files path signer) in
/-- What holds after some calls: the cache holds the last directory that was accepted. -/
structure Kept (tr : List (Call × Answer)) (now : Files Path) : Prop where
  guarded : Guarded parse_document S files path signer tr
  newest : ∀ x ∈ issuedOf parse_document S files path signer tr,
    ∃ document, read_verified_cache parse_document S now (some path) signer = some document ∧ x ≤ document.dir.issued
  known : ∀ document, read_verified_cache parse_document S now (some path) signer = some document →
    Known parse_document S files path signer tr document.dir

lemma kept_nil : Kept parse_document S files path signer [] files := by
  refine ⟨⟨by simp, by simp, by simp, ?_⟩, fun x hx => ?_, fun document hread => .inl ⟨document, hread, rfl⟩⟩
  · cases hread : read_verified_cache parse_document S files (some path) signer <;> simp [issuedOf, hread]
  · cases hread : read_verified_cache parse_document S files (some path) signer with
    | none => simp [issuedOf, hread] at hx
    | some document =>
      obtain rfl : x = document.dir.issued := by simpa [issuedOf, hread] using hx
      exact ⟨document, rfl, UInt64.le_refl _⟩

/-- The step of the invariant when the fetched directory is accepted. -/
lemma Kept.accept {now next : Files Path} {document : DirectoryDocument}
    (h : Kept parse_document S files path signer tr now)
    (haccept : Accepts parse_document S now next path signer call answer document) :
    Kept parse_document S files path signer (tr ++ [(call, answer)]) next := by
  have hissued : ∀ x ∈ issuedOf parse_document S files path signer tr, x ≤ document.dir.issued := by
    intro x hx
    obtain ⟨cached, hread, hle⟩ := h.newest x hx
    exact UInt64.le_trans hle (haccept.floor cached hread)
  have hout : ∀ {out}, answer = .ok out → out = ⟨document.dir, document.demo, .Fresh, none⟩ :=
    fun h => Except.ok.inj (h.symm.trans haccept.answer_eq)
  refine ⟨h.guarded.snoc (fun out heq => ?_) (fun out heq _ => ?_) (fun out heq hcache => ?_) (fun out heq => ?_),
    fun x hx => ⟨document, haccept.written, ?_⟩, fun document' hread => .inr ⟨(call, answer), by simp, _,
      haccept.answer_eq, rfl, ?_⟩⟩
  · exact hout heq ▸ haccept.signed
  · exact hout heq ▸ haccept.young
  · rw [hout heq] at hcache
    cases hcache
  · exact hout heq ▸ hissued
  · rw [issuedOf_snoc, haccept.answer_eq] at hx
    rcases List.mem_append.mp hx with hold | hnew
    · exact hissued x hold
    · obtain rfl : x = document.dir.issued := by simpa [Except.toOption] using hnew
      exact UInt64.le_refl _
  · exact congrArg DirectoryDocument.dir (Option.some.inj (haccept.written.symm.trans hread))

/-- The step of the invariant when the cache answers. -/
lemma Kept.fall_back {now : Files Path} (h : Kept parse_document S files path signer tr now) {why : String}
    (hanswer : answer = DirCache.fall_back (read_verified_cache parse_document S now (some path) signer) why) :
    Kept parse_document S files path signer (tr ++ [(call, answer)]) now := by
  cases hread : read_verified_cache parse_document S now (some path) signer with
  | none =>
    obtain ⟨e, rfl⟩ : ∃ e, answer = .error e := ⟨_, by rw [hanswer, hread]; rfl⟩
    have hsame : issuedOf parse_document S files path signer (tr ++ [(call, .error e)]) =
        issuedOf parse_document S files path signer tr := by
      rw [issuedOf_snoc]
      exact List.append_nil _
    exact ⟨h.guarded.snoc (by simp) (by simp) (by simp) (by simp), hsame ▸ h.newest,
      fun document hsome => (h.known document hsome).mono _⟩
  | some cached =>
    obtain rfl : answer = .ok ⟨cached.dir, cached.demo, .Cache, some why⟩ := by rw [hanswer, hread]; rfl
    have hissued : ∀ x ∈ issuedOf parse_document S files path signer tr, x ≤ cached.dir.issued := by
      intro x hx
      obtain ⟨document, hsome, hle⟩ := h.newest x hx
      rwa [← Option.some.inj (hread.symm.trans hsome)] at hle
    refine ⟨h.guarded.snoc (fun out heq => ?_) (fun out heq hfresh => ?_) (fun out heq _ => ?_) (fun out heq => ?_),
      fun x hx => ⟨cached, hread, ?_⟩, fun document hsome => (h.known document hsome).mono _⟩
    · obtain rfl := Except.ok.inj heq
      unfold read_verified_cache at hread
      split at hread
      · cases hread
      · next raw _ =>
        cases hparse : parse_and_verify_document parse_document S raw signer with
        | error e => rw [hparse] at hread; cases hread
        | ok document =>
          rw [hparse] at hread
          obtain rfl : document = cached := Option.some.inj hread
          exact (verified_of_parse hparse).2
    · obtain rfl := Except.ok.inj heq
      cases hfresh
    · obtain rfl := Except.ok.inj heq
      exact h.known cached hread
    · obtain rfl := Except.ok.inj heq
      exact hissued
    · rw [issuedOf_snoc] at hx
      rcases List.mem_append.mp hx with hold | hnew
      · exact hissued x hold
      · obtain rfl : x = cached.dir.issued := by simpa [Except.toOption] using hnew
        exact UInt64.le_refl _

/-! ### Runs -/

variable [DecidableEq Path]

/-- What is written is read back. -/
lemma read_written (hline : ∀ raw document, parse_document raw = .ok document →
      parse_document (raw ++ "\n") = .ok document) {raw : String} {document : DirectoryDocument}
    (h : parse_and_verify_document parse_document S raw signer = .ok document) :
    read_verified_cache parse_document S (write_cache files (some path) raw) (some path) signer = some document := by
  obtain ⟨hparse, keys, hverify⟩ := verified_of_parse h
  have hread : ∀ body, parse_document body = .ok document →
      (parse_and_verify_document parse_document S body signer).toOption = some document := by
    intro body hbody
    rw [parse_and_verify_document, hbody]
    simp only [hverify]
    rfl
  simp only [read_verified_cache, write_cache, Option.bind_some, Function.update_self]
  split_ifs
  · exact hread _ hparse
  · exact hread _ (hline _ _ hparse)

/-- **What one call does.** It accepts the fetched directory, or it returns what is in the cache and leaves it. -/
lemma resolving_cases (hline : ∀ raw document, parse_document raw = .ok document →
      parse_document (raw ++ "\n") = .ok document)
    (h : resolving parse_document S path signer files (call, answer) files') :
    (∃ document, Accepts parse_document S files files' path signer call answer document) ∨
    files' = files ∧
      ∃ why, answer = fall_back (read_verified_cache parse_document S files (some path) signer) why := by
  have h : resolve_directory parse_document S files call.fresh (some path) signer call.max_age call.now_ms =
    (files', answer) := h
  unfold resolve_directory at h
  cases hfresh : call.fresh with
  | error e =>
    simp only [hfresh, Prod.mk.injEq] at h
    exact .inr ⟨h.1.symm, _, h.2.symm⟩
  | ok raw =>
    cases hparse : parse_and_verify_document parse_document S raw signer with
    | error e =>
      simp only [hfresh, hparse, Prod.mk.injEq] at h
      exact .inr ⟨h.1.symm, _, h.2.symm⟩
    | ok document =>
      have haccept : ¬ document.dir.issued < ((read_verified_cache parse_document S files (some path) signer).map
            fun d => d.dir.issued).getD 0 → call.Young document.dir →
          (write_cache files (some path) raw, Except.ok ⟨document.dir, document.demo, .Fresh, none⟩) =
            (files', answer) → Accepts parse_document S files files' path signer call answer document := by
        intro hfloor hyoung heq
        obtain ⟨rfl, rfl⟩ := Prod.mk.inj heq
        refine ⟨(verified_of_parse hparse).2, fun cached hcached => ?_, hyoung, rfl, read_written hline hparse⟩
        rw [hcached] at hfloor
        exact UInt64.not_lt.mp hfloor
      simp only [hfresh, hparse] at h
      split_ifs at h with hfloor
      · obtain ⟨rfl, rfl⟩ := Prod.mk.inj h
        exact .inr ⟨rfl, _, rfl⟩
      · cases hmax : call.max_age.max_age_ms with
        | none =>
          simp only [hmax] at h
          exact .inl ⟨document, haccept hfloor (fun max hsome => by rw [hmax] at hsome; cases hsome) h⟩
        | some max =>
          simp only [hmax] at h
          split_ifs at h with hstale
          · obtain ⟨rfl, rfl⟩ := Prod.mk.inj h
            exact .inr ⟨rfl, _, rfl⟩
          · exact .inl ⟨document, haccept hfloor (young_of_not_stale hmax hstale) h⟩

/-- Without a cached directory a young one is accepted. -/
lemma resolve_of_young {raw : String} {document : DirectoryDocument} {max skew now_ms : UInt64}
    (hparse : parse_and_verify_document parse_document S raw signer = .ok document)
    (hnone : read_verified_cache parse_document S files (some path) signer = none)
    (hyoung : ¬ max + skew < age_ms now_ms document.dir.issued) :
    resolve_directory parse_document S files (.ok raw) (some path) signer ⟨some max, skew⟩ now_ms =
      (write_cache files (some path) raw, .ok ⟨document.dir, document.demo, .Fresh, none⟩) := by
  have hfloor : ¬ document.dir.issued < 0 := UInt64.not_lt_zero
  simp only [resolve_directory, hparse, hnone, Option.map_none, Option.getD_none, if_neg hfloor, if_neg hyoung]

/-- A fetch that fails leaves it to the cached directory. -/
lemma resolve_of_cached {why : String} {document : DirectoryDocument} {max_age : MaxAge} {now_ms : UInt64}
    (hcached : read_verified_cache parse_document S files (some path) signer = some document) :
    resolve_directory parse_document S files (.error why) (some path) signer max_age now_ms =
      (files, .ok ⟨document.dir, document.demo, .Cache, some why⟩) := by
  simp only [resolve_directory, hcached, fall_back]

/-- **Any calls on one cache.** What they return is guarded, and a call that does not return what it fetched leaves the
files as they are. -/
theorem resolving_guarded (hline : ∀ raw document, parse_document raw = .ok document →
      parse_document (raw ++ "\n") = .ok document) :
    (∀ tr files', Run (resolving parse_document S path signer) files tr files' →
      Guarded parse_document S files path signer tr) ∧
    ∀ (files files' : Files Path) (e : Call × Answer), resolving parse_document S path signer files e files' →
      ¬ IsFresh e.2 → files' = files := by
  refine ⟨fun tr files' hrun => ?_, fun files files' e hstep hnot => ?_⟩
  · refine (hrun.invariant (I := Kept parse_document S files path signer) kept_nil ?_).guarded
    rintro tr now ⟨call, answer⟩ next - hkept hstep
    rcases resolving_cases hline hstep with ⟨document, haccept⟩ | ⟨rfl, why, hanswer⟩
    · exact hkept.accept haccept
    · exact hkept.fall_back hanswer
  · rcases resolving_cases hline hstep with ⟨document, haccept⟩ | ⟨rfl, -⟩
    · exact absurd ⟨_, haccept.answer_eq, rfl⟩ hnot
    · rfl

end Calls

/-! ### A directory that gets old -/

/-- The key whose seed is all zeros. -/
def zeroSigner : String := "3b6a27bcceb6a42d62a3a8d02a6f0d73653215771de243a63ac048a18b59da29"

/-- Its signature of the directory below. -/
def zeroSignature : String :=
  "949ada0cd85f9b0065e39ec4d5388aeb76643c123f9c75bd7bfe9e4b47bd9226" ++
    "162798557853d56c4d9e57139f133a9c45843d0ff7d01478224b874f6724ee02"

/-- A directory of 1970 with one gateway. -/
def zeroText : String :=
  "\x7b\"version\":1,\"issued\":0,\"gateways\":[\x7b\"onion\":" ++
    "\"aaaaaaaaaaaaaaaaaaaaaaaaaaaaaaaaaaaaaaaaaaaaaaaaaaam2dqd.onion\",\"pubkey\":" ++
    "\"0000000000000000000000000000000000000000000000000000000000000000\",\"weight\":100,\"health\":\"up\"\x7d]," ++
    "\"signer\":\"" ++ zeroSigner ++ "\",\"signature\":\"" ++ zeroSignature ++ "\"\x7d"

def zeroDirectory : Proto.Directory where
  version := 1
  issued := 0
  gateways := [⟨"aaaaaaaaaaaaaaaaaaaaaaaaaaaaaaaaaaaaaaaaaaaaaaaaaaam2dqd.onion",
    "0000000000000000000000000000000000000000000000000000000000000000", 100, "up", none, none⟩]
  signer := some zeroSigner
  signature := some zeroSignature
  signers := none
  signatures := none
  threshold := none

/-- The text is read with line ends behind it. -/
def zeroParse (raw : String) : Except String DirectoryDocument :=
  if (raw.toList.reverse.dropWhile fun c => c = '\n').reverse = zeroText.toList then .ok ⟨zeroDirectory, none⟩
  else .error "directory parse: expected value at line 1 column 1"

/-- The checksum of its onion, and the one signature. -/
def zeroSchemes : Proto.Schemes where
  toLowercase := Directory.toLowerCase
  onionChecksum _ := [205, 14]
  ed25519Verify bytes sig key := some key = Proto.hexArray 32 zeroSigner && some sig = Proto.hexArray 64 zeroSignature &&
    bytes = Proto.canonicalDirectoryBytes zeroDirectory

lemma zeroParse_line (raw : String) : zeroParse (raw ++ "\n") = zeroParse raw := by
  have hdrop : ((raw ++ "\n").toList.reverse.dropWhile fun c => c = '\n') =
      raw.toList.reverse.dropWhile fun c => c = '\n' := by simp
  rw [zeroParse, hdrop, zeroParse]

lemma zeroText_last : ∃ cs, zeroText.toList = cs ++ ['\x7d'] := by
  obtain ⟨body, hbody⟩ : ∃ body, zeroText = body ++ "\"\x7d" := ⟨_, rfl⟩
  exact ⟨body.toList ++ ['"'], by rw [hbody]; simp⟩

lemma zeroParse_text : zeroParse zeroText = .ok ⟨zeroDirectory, none⟩ := by
  obtain ⟨cs, hcs⟩ := zeroText_last
  rw [zeroParse, if_pos]
  simp [hcs]

lemma zero_sigOk : Proto.sigOk zeroSchemes (Proto.canonicalDirectoryBytes zeroDirectory) zeroSigner zeroSignature =
    true := by
  have hkey : (Proto.hexArray 32 zeroSigner).isSome := by decide
  have hsig : (Proto.hexArray 64 zeroSignature).isSome := by decide +kernel
  obtain ⟨key, hkey⟩ := Option.isSome_iff_exists.mp hkey
  obtain ⟨sig, hsig⟩ := Option.isSome_iff_exists.mp hsig
  simp [Proto.sigOk, hkey, hsig, zeroSchemes]

lemma zero_verified : parse_and_verify_document zeroParse zeroSchemes zeroText zeroSigner =
    .ok ⟨zeroDirectory, none⟩ := by
  have hpins : Proto.normalizePinnedSigners zeroSchemes (pins_of zeroSigner) = [zeroSigner] := by decide
  have hdeclared : Proto.toAsciiLowercase (if (Directory.afterStart "0x".toList zeroSigner.toList).isSome
      then Proto.dropStart "0x" zeroSigner else Proto.dropStart "0X" zeroSigner) = zeroSigner := by decide
  have hbound : Proto.checkGatewayBindings zeroSchemes zeroDirectory.gateways = .ok () := by decide +kernel
  have hsingle : Proto.isThresholdDirectory zeroDirectory = false := rfl
  have hverify : Proto.verifyDirectory zeroSchemes zeroDirectory zeroSigner = .ok () := by
    rw [Proto.verifyDirectory, hsingle]
    simp [zeroDirectory, ← hbound, ← zero_sigOk]
  have haccepted : Proto.verifyDirectoryWithSigners zeroSchemes zeroDirectory (pins_of zeroSigner) =
      .ok [zeroSigner] := by
    rw [Proto.verifyDirectoryWithSigners]
    simp only [hpins, hsingle, show zeroDirectory.signer = some zeroSigner from rfl, hdeclared, hverify]
    simp
    rfl
  rw [parse_and_verify_document, zeroParse_text]
  simp only [haccepted]

/-- A fetch within a minute of the issue, and one that fails hours later. -/
def agedCalls : List (Call × Answer) :=
  [(⟨.ok zeroText, ⟨some 60000, 0⟩, 1000⟩, .ok ⟨zeroDirectory, none, .Fresh, none⟩),
    (⟨.error "offline", ⟨some 60000, 0⟩, 10000000⟩, .ok ⟨zeroDirectory, none, .Cache, some "offline"⟩)]

lemma agedCalls_run : ∃ files', Run (resolving zeroParse zeroSchemes () zeroSigner) (fun _ => none) agedCalls files' := by
  have hbody : write_cache (fun _ => none) (some ()) zeroText = fun _ => some (zeroText ++ "\n") := by
    funext path
    obtain ⟨cs, hcs⟩ := zeroText_last
    rw [write_cache, if_neg (by simp [hcs])]
    exact Function.update_self _ _ _
  have hcached : read_verified_cache zeroParse zeroSchemes (fun _ => some (zeroText ++ "\n")) (some ()) zeroSigner =
      some ⟨zeroDirectory, none⟩ := by
    have hline : parse_and_verify_document zeroParse zeroSchemes (zeroText ++ "\n") zeroSigner =
        parse_and_verify_document zeroParse zeroSchemes zeroText zeroSigner := by
      rw [parse_and_verify_document, zeroParse_line, parse_and_verify_document]
    simp only [read_verified_cache, Option.bind_some, hline, zero_verified]
    rfl
  let written : Files Unit := fun _ => some (zeroText ++ "\n")
  refine ⟨written, Run.cons (t := written) ?_ (Run.single ?_)⟩
  · refine (resolve_of_young zero_verified rfl (by decide)).trans ?_
    rw [hbody]
  · exact resolve_of_cached hcached

/-- The directory that the second call returns is older than both calls allow. -/
theorem cached_not_young : ¬ ∀ (parse_document : String → Except String DirectoryDocument) (S : Proto.Schemes)
    (signer : String) (max_age : MaxAge) (files files' : Files Unit) (tr : List (Call × Answer)),
    (∀ raw document, parse_document raw = .ok document → parse_document (raw ++ "\n") = .ok document) →
    Run (resolving parse_document S () signer) files tr files' → (∀ e ∈ tr, e.1.max_age = max_age) →
    ∀ e ∈ tr, ∀ out, e.2 = .ok out →
      (∃ keys, Proto.verifyDirectoryWithSigners S out.dir (pins_of signer) = .ok keys) ∧ e.1.Young out.dir := by
  intro hall
  obtain ⟨files', hrun⟩ := agedCalls_run
  have h := (hall zeroParse zeroSchemes zeroSigner ⟨some 60000, 0⟩ _ files' _
    (fun raw document h => (zeroParse_line raw).trans h) hrun (by simp [agedCalls])
    _ (List.mem_cons_of_mem _ List.mem_cons_self) _ rfl).2 60000 rfl
  exact absurd h (by decide)

/-- The same calls are guarded. -/
theorem resolving_guarded_aged : Guarded zeroParse zeroSchemes (fun _ => none) () zeroSigner agedCalls := by
  obtain ⟨files', hrun⟩ := agedCalls_run
  exact (resolving_guarded fun raw document h => (zeroParse_line raw).trans h).1 agedCalls files' hrun

end ShadeTree.Native.DirCache
