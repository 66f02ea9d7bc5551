import ShadeTree.Gateway.Fleet
import ShadeTree.Gateway.TallyTransport

/-!
# The mesh of gateways

The fleet of `Fleet.lean` with the transports and the requests between them.  In the fleet a message may come
from anyone.  Here it comes from a gateway that pushes, or from somebody without the token.
-/

namespace ShadeTree.Gateway

open ShadeTree.Lib

/-! ### What a tally knows -/

namespace FleetTally

/-- The nullifier is in the bucket of the scope. -/
def Knows (t : FleetTally) (n k : String) : Prop := ∃ b, t.buckets.lookup k = some b ∧ n ∈ b.set

variable {ttl now : ℤ} {C : TallyCaps} {t : FleetTally} {n k n' k' : String}

lemma Knows.of_prune (h : (t.prune ttl now).Knows n k) : t.Knows n k := by
  obtain ⟨b, hb, hn⟩ := h
  rw [prune_lookup] at hb
  exact ⟨b, (Option.filter_eq_some_iff.mp hb).1, hn⟩

lemma Knows.of_addTo {b : Bucket} (hb : t.buckets.lookup k = some b) (h : (t.addTo C n k b).1.Knows n' k') :
    t.Knows n' k' ∨ n' = n ∧ k' = k := by
  unfold addTo at h
  split at h
  · exact .inl h
  split at h
  · exact .inl h
  obtain ⟨b', hb', hn'⟩ := h
  by_cases hk : k' = k
  · subst hk
    rw [AList.lookup_insert] at hb'
    obtain rfl := Option.some.inj hb'
    rcases Finset.mem_insert.mp hn' with rfl | hold
    · exact .inr ⟨rfl, rfl⟩
    · exact .inl ⟨b, hb, hold⟩
  · rw [AList.lookup_insert_ne hk] at hb'
    exact .inl ⟨b', hb', hn'⟩

/-- The tally learns nothing but what it is given. -/
lemma Knows.of_ingest (h : (t.ingest ttl C now n k).1.Knows n' k') : t.Knows n' k' ∨ n' = n ∧ k' = k := by
  unfold ingest at h
  split at h
  · next m j hm hj =>
    obtain rfl := canonicalTallyField_some hm
    obtain rfl := canonicalTallyField_some hj
    dsimp only at h
    split at h
    · next b hb => exact (Knows.of_addTo hb h).imp_left Knows.of_prune
    · next hnone =>
      split at h
      · exact .inl h.of_prune
      · rcases Knows.of_addTo (AList.lookup_insert _) h with ⟨b, hb, hn⟩ | heq
        · by_cases hk : k' = j
          · subst hk
            rw [AList.lookup_insert] at hb
            obtain rfl := Option.some.inj hb
            cases hn
          · rw [AList.lookup_insert_ne hk] at hb
            exact .inl (Knows.of_prune ⟨b, hb, hn⟩)
        · exact .inr heq
  · exact .inl h

lemma Knows.of_has (h : (t.has ttl now n k).1.Knows n' k') : t.Knows n' k' := by
  unfold has at h
  dsimp only at h
  split at h <;> exact h.of_prune

lemma Knows.of_record (h : (t.record ttl C now n k).1.Knows n' k') :
    t.Knows n' k' ∨ n' = n ∧ k' = k ∧ (t.record ttl C now n k).2 = some (n, k) := by
  unfold record at h ⊢
  split at h
  · next m j hm hj =>
    obtain rfl := canonicalTallyField_some hm
    obtain rfl := canonicalTallyField_some hj
    rcases h.of_ingest with hold | ⟨hn, hk⟩
    · exact .inl hold
    · exact .inr ⟨hn, hk, rfl⟩
  · exact .inl h

end FleetTally

/-- A tally learns from a tunnel that connects, and then the tunnel is published, or from a message. -/
lemma FleetStep.knows {π κ G : Type} [DecidableEq G] {R : Rln π κ} {S : SpentConfig} {C : TallyCaps}
    {epochOf : String → ℤ} {s v : Fleet G} {c : FleetEvent G} (h : FleetStep R S C epochOf s c v) {g : G}
    {n k : String} (hknows : (v.node g).tally.Knows n k) :
    (s.node g).tally.Knows n k ∨ (g, n, k) ∈ v.wire ∨ ∃ now stored, c = .deliver g now n k stored := by
  have hone : ∀ {g' : G} {u : Node}, (Function.update s.node g' u g).tally.Knows n k →
      (s.node g).tally.Knows n k ∨ g = g' ∧ u.tally.Knows n k := by
    intro g' u hu
    by_cases hg : g = g'
    · subst hg
      exact .inr ⟨rfl, by rwa [Function.update_self] at hu⟩
    · exact .inl (by rwa [Function.update_of_ne hg] at hu)
  cases h with
  | @admitted g' now n' k' share nonce u answer hclock hepoch had =>
    rcases hone hknows with hold | ⟨rfl, hu⟩
    · exact .inl hold
    obtain ⟨rfl, -⟩ := Prod.mk.inj had
    left
    change ((s.node g).ask (ttlMs R) now n' k' share).1.Knows n k at hu
    unfold Node.ask at hu
    split at hu
    · exact hu.of_has
    · exact hu
  | @connect g' now n' k' u m hclock hdial hcon =>
    rcases hone hknows with hold | ⟨rfl, hu⟩
    · exact .inl hold
    unfold Node.connect at hcon
    dsimp only at hcon
    split at hcon
    · obtain ⟨rfl, rfl⟩ := Prod.mk.inj hcon
      rcases FleetTally.Knows.of_record hu with hold | ⟨rfl, rfl, hrecord⟩
      · exact .inl hold
      · refine .inr (.inl (List.mem_append_right _ ?_))
        rw [hrecord]
        exact List.mem_singleton_self _
    · obtain ⟨rfl, -⟩ := Prod.mk.inj hcon
      exact .inl hu
  | @deliver g' now n' k' t stored hclock hin =>
    rcases hone hknows with hold | ⟨rfl, hu⟩
    · exact .inl hold
    obtain ⟨rfl, -⟩ := Prod.mk.inj hin
    rcases FleetTally.Knows.of_ingest hu with hold | ⟨rfl, rfl⟩
    · exact .inl hold
    · exact .inr (.inr ⟨now, stored, rfl⟩)
  | has hclock hhas =>
    rcases hone hknows with hold | ⟨rfl, hu⟩
    · exact .inl hold
    obtain ⟨rfl, -⟩ := Prod.mk.inj hhas
    exact .inl (FleetTally.Knows.of_has hu)
  | prune hclock => exact .inl ((hone hknows).elim id fun ⟨hg, hu⟩ => hg ▸ FleetTally.Knows.of_prune hu)
  | sweep hclock => exact .inl ((hone hknows).elim id fun ⟨hg, hu⟩ => hg ▸ hu)

/-! ### The mesh -/

/-- Who pushes to which peer, and what is announced. -/
structure Push (G : Type) where
  sender : G
  peer : String
  nullifier : String
  epoch : String
  deriving DecidableEq

/-- The fleet, the transports, the pushes that wait for their turn, those whose request has not come to its end,
and the requests under way. -/
structure Mesh (G : Type) where
  fleet : Fleet G
  transport : G → TallyTransport
  queued : List (Push G)
  posted : List (Push G)
  wire : List (Push G)

inductive MeshEvent (G : Type) where
  | fleet (c : FleetEvent G)
  | connect (g : G) (now : ℤ) (nullifier scope : String) (offers : List (String × Offer))
  | posted (push : Push G)
  | settled (push : Push G)
  | request (g : G) (status : Option ℕ)
  | deliver (origin : Option (Push G)) (g : G) (now : ℤ) (nullifier scope : String) (stored : Bool)
  | addPeer (g : G) (peer : String) (added : Bool)
  | close (g : G)

section Mesh

variable {G : Type}

/-- The pushes of a gateway whose promise has not settled. -/
def Mesh.pending [DecidableEq G] (s : Mesh G) (g : G) : List String :=
  ((s.queued ++ s.posted).filter fun push => push.sender = g).map Push.peer

/-- Nobody publishes or delivers. -/
def FleetEvent.quiet : FleetEvent G → Bool
  | .connect .. | .deliver .. => false
  | _ => true

/-- The step as the fleet sees it. -/
def MeshEvent.toFleet : MeshEvent G → Option (FleetEvent G)
  | .fleet c => some c
  | .connect g now n k _ => some (.connect g now n k)
  | .deliver _ g now n k stored => some (.deliver g now n k stored)
  | _ => none

/-- What the transport does with what `record` publishes. -/
def publishOf (m : Option (String × String)) (t : TallyTransport) : TallyTransport × List (String × Offer) :=
  match m with
  | some (n, k) => t.publish n k
  | none => (t, [])

def pushes (g : G) (n k : String) (offers : List (String × Offer)) : List (Push G) :=
  (queuedOf offers).map fun p => ⟨g, p, n, k⟩

/-- A request comes from a push under way to a name of the gateway, or from somebody who does not know the
token of the gateway. -/
inductive Origin (E : G → TallyEndpoint) (Reaches : String → G → Prop) (wire : List (Push G)) (g : G) (r : Inbound) :
    Option (Push G) → Prop where
  | push {p : Push G} {chunks : List (List UInt8)} {ended : Bool} :
      p ∈ wire → Reaches p.peer g → Carries (payload p.nullifier p.epoch) chunks ended →
      r = pushRequest (E p.sender) p.nullifier p.epoch chunks ended → Origin E Reaches wire g r (some p)
  | outsider : r.authorization ≠ some ("Bearer " ++ (E g).authToken) → Origin E Reaches wire g r none

/-- The requests that are left. -/
def leave [DecidableEq G] (wire : List (Push G)) : Option (Push G) → List (Push G)
  | some p => wire.erase p
  | none => wire

section Steps

open Function (update)

variable {π κ : Type} [DecidableEq G] (R : Rln π κ) (S : SpentConfig) (C : TallyCaps) (epochOf : String → ℤ)
  (parse : String → Option Value) (E : G → TallyEndpoint) (Reaches : String → G → Prop)

/-- One step: of the fleet alone, a tunnel connects and is announced, a push begins or comes to its end, a
request is answered, a peer is added, a transport closes.  A request may arrive late, or never. -/
inductive MeshStep : Mesh G → MeshEvent G → Mesh G → Prop where
  | fleet {s : Mesh G} {c : FleetEvent G} {f : Fleet G} :
      c.quiet = true → FleetStep R S C epochOf s.fleet c f → MeshStep s (.fleet c) { s with fleet := f }
  | connect {s : Mesh G} {g : G} {now : ℤ} {n k : String} {u : Node} {m : Option (String × String)}
      {t : TallyTransport} {offers : List (String × Offer)} :
      s.fleet.clock ≤ now → (n, k) ∈ (s.fleet.node g).dialing →
      (s.fleet.node g).connect (ttlMs R) C now n k = (u, m) → publishOf m (s.transport g) = (t, offers) →
      MeshStep s (.connect g now n k offers)
        { s with
          fleet := ⟨now, update s.fleet.node g u, s.fleet.wire ++ (m.map fun m => (g, m)).toList⟩
          transport := update s.transport g t
          queued := s.queued ++ pushes g n k offers }
  | posted {s : Mesh G} {push : Push G} : push ∈ s.queued →
      MeshStep s (.posted push)
        { s with queued := s.queued.erase push, posted := push :: s.posted, wire := push :: s.wire }
  | settled {s : Mesh G} {push : Push G} : push ∈ s.posted →
      MeshStep s (.settled push)
        { s with
          posted := s.posted.erase push
          transport := update s.transport push.sender ((s.transport push.sender).settle push.peer) }
  | request {s : Mesh G} {g : G} {r : Inbound} {o : Option (Push G)} {status : Option ℕ} :
      Origin E Reaches s.wire g r o → serve parse (E g) (s.transport g).closed r = (status, none) →
      MeshStep s (.request g status) { s with wire := leave s.wire o }
  | deliver {s : Mesh G} {g : G} {r : Inbound} {o : Option (Push G)} {status : Option ℕ} {now : ℤ} {n k : String}
      {t : FleetTally} {stored : Bool} :
      Origin E Reaches s.wire g r o → serve parse (E g) (s.transport g).closed r = (status, some (n, k)) →
      s.fleet.clock ≤ now → (s.fleet.node g).tally.ingest (ttlMs R) C now n k = (t, stored) →
      MeshStep s (.deliver o g now n k stored)
        { s with
          fleet := ⟨now, update s.fleet.node g { s.fleet.node g with tally := t }, s.fleet.wire⟩
          wire := leave s.wire o }
  | addPeer {s : Mesh G} {g : G} {peer : String} {t : TallyTransport} {added : Bool} :
      (s.transport g).addPeer peer = (t, added) →
      MeshStep s (.addPeer g peer added) { s with transport := update s.transport g t }
  | close {s : Mesh G} {g : G} :
      MeshStep s (.close g) { s with transport := update s.transport g (s.transport g).close }

end Steps

/-- Nothing was done yet; the transports are as they were made. -/
def Mesh.start (clock : ℤ) (transport : G → TallyTransport) : Mesh G := ⟨.start clock, transport, [], [], []⟩

/-- The gateway announced under the nullifier and scope of the push. -/
def MeshEvent.connects [DecidableEq G] (push : Push G) : MeshEvent G → Bool
  | .connect g _ n k _ => decide (g = push.sender ∧ n = push.nullifier ∧ k = push.epoch)
  | _ => false

/-- The push was delivered. -/
def MeshEvent.delivers [DecidableEq G] (push : Push G) : MeshEvent G → Bool
  | .deliver (some p) .. => decide (p = push)
  | _ => false

/-- The gateway warns that it drops what it has for the peer. -/
def MeshEvent.Warns (g : G) (peer : String) : MeshEvent G → Prop
  | .connect g' _ _ _ offers => g' = g ∧ (peer, Offer.dropped true) ∈ offers
  | _ => False

/-- A push of the gateway to the peer came to its end. -/
def MeshEvent.Settles (g : G) (peer : String) : MeshEvent G → Prop
  | .settled push => push.sender = g ∧ push.peer = peer
  | _ => False

end Mesh

/-! ### What one step of the mesh does -/

section MeshInversion

open Function (update)

variable {π κ G : Type} [DecidableEq G] {R : Rln π κ} {S : SpentConfig} {C : TallyCaps} {epochOf : String → ℤ}
  {parse : String → Option Value} {E : G → TallyEndpoint} {Reaches : String → G → Prop}
  {s v : Mesh G} {e : MeshEvent G} {g : G} {p : String}

lemma FleetStep.wire_mono {f f' : Fleet G} {c : FleetEvent G} (h : FleetStep R S C epochOf f c f') :
    ∀ m ∈ f.wire, m ∈ f'.wire := by
  intro m hm
  cases h with
  | connect => exact List.mem_append_left _ hm
  | _ => exact hm

/-- What a tunnel that connects publishes is offered to every peer, if it is offered at all. -/
lemma publishOf_cases {ttl now : ℤ} {node u : Node} {n k : String} {m : Option (String × String)}
    {t t' : TallyTransport} {offers : List (String × Offer)} (hcon : node.connect ttl C now n k = (u, m))
    (hpub : publishOf m t = (t', offers)) :
    (t' = t ∧ offers = []) ∨ (m = some (n, k) ∧ canonicalTallyField n = some n ∧ canonicalTallyField k = some k ∧
      TallyTransport.offerAll t.peerList t = (t', offers)) := by
  cases m with
  | none =>
    obtain ⟨rfl, rfl⟩ := Prod.mk.inj hpub
    exact .inl ⟨rfl, rfl⟩
  | some m =>
    obtain rfl := Node.connect_publishes hcon
    change t.publish n k = (t', offers) at hpub
    rcases TallyTransport.publish_cases n k t with ⟨hall, hn, hk⟩ | hnone
    · exact .inr ⟨rfl, hn, hk, hall.symm.trans hpub⟩
    · obtain ⟨rfl, rfl⟩ := Prod.mk.inj (hnone.symm.trans hpub)
      exact .inl ⟨rfl, rfl⟩

omit [DecidableEq G] in
/-- What is delivered was announced in a push under way to this gateway. -/
lemma Origin.delivers {wire : List (Push G)} {r : Inbound} {o : Option (Push G)} {closed : Bool}
    {status : Option ℕ} {n k : String} (h : Origin E Reaches wire g r o) (hparse : ReadsAnnouncements parse)
    (hwire : ∀ push ∈ wire, canonicalTallyField push.nullifier = some push.nullifier ∧
      canonicalTallyField push.epoch = some push.epoch)
    (hserve : serve parse (E g) closed r = (status, some (n, k))) :
    ∃ push, o = some push ∧ push ∈ wire ∧ Reaches push.peer g ∧ push.nullifier = n ∧ push.epoch = k := by
  cases h with
  | @push push chunks ended hmem hreach hcarries hr =>
    subst hr
    obtain ⟨rfl, rfl⟩ := push_delivers hparse (hwire push hmem).1 (hwire push hmem).2 hcarries hserve
    exact ⟨push, rfl, hmem, hreach, rfl, rfl⟩
  | outsider hauth => exact absurd (serve_delivers hserve).2.1 hauth

/-- The fleet takes the step that it sees, or stays as it is. -/
lemma MeshStep.fleet_step (h : MeshStep R S C epochOf parse E Reaches s e v) :
    (∃ c, e.toFleet = some c ∧ FleetStep R S C epochOf s.fleet c v.fleet) ∨
      e.toFleet = none ∧ v.fleet = s.fleet := by
  cases h with
  | fleet _ hstep => exact .inl ⟨_, rfl, hstep⟩
  | connect hclock hdial hcon _ => exact .inl ⟨_, rfl, .connect hclock hdial hcon⟩
  | deliver _ _ hclock hin => exact .inl ⟨_, rfl, .deliver hclock hin⟩
  | _ => exact .inr ⟨rfl, rfl⟩

lemma MeshStep.published (h : MeshStep R S C epochOf parse E Reaches s e v) :
    ∀ m ∈ s.fleet.wire, m ∈ v.fleet.wire := by
  intro m hm
  rcases h.fleet_step with ⟨c, -, hstep⟩ | ⟨-, hsame⟩
  · exact hstep.wire_mono m hm
  · rwa [hsame]

/-- A push under way was under way or was posted now; one that is queued was queued or is announced now. -/
lemma MeshStep.push (h : MeshStep R S C epochOf parse E Reaches s e v) {push : Push G} :
    (push ∈ v.wire → push ∈ s.wire ∨ push ∈ s.queued ∧ e = .posted push) ∧
    (push ∈ v.queued → push ∈ s.queued ∨ (push.sender, push.nullifier, push.epoch) ∈ v.fleet.wire ∧
      canonicalTallyField push.nullifier = some push.nullifier ∧
      canonicalTallyField push.epoch = some push.epoch) := by
  have hleave : ∀ o, push ∈ leave s.wire o → push ∈ s.wire := by
    intro o ho
    cases o with
    | none => exact ho
    | some p => exact List.mem_of_mem_erase ho
  cases h with
  | @connect g now n k u m t offers hclock hdial hcon hpub =>
    refine ⟨.inl, fun hq => ?_⟩
    rcases List.mem_append.mp hq with hold | hnew
    · exact .inl hold
    · right
      rcases publishOf_cases hcon hpub with ⟨-, rfl⟩ | ⟨rfl, hn, hk, -⟩
      · cases hnew
      · obtain ⟨peer, -, rfl⟩ := List.mem_map.mp hnew
        exact ⟨List.mem_append_right _ (List.mem_singleton_self _), hn, hk⟩
  | posted hmem =>
    refine ⟨fun hw => ?_, fun hq => .inl (List.mem_of_mem_erase hq)⟩
    rcases List.mem_cons.mp hw with rfl | hold
    · exact .inr ⟨hmem, rfl⟩
    · exact .inl hold
  | request _ _ => exact ⟨fun hw => .inl (hleave _ hw), .inl⟩
  | deliver _ _ _ _ => exact ⟨fun hw => .inl (hleave _ hw), .inl⟩
  | _ => exact ⟨.inl, .inl⟩

/-- The peers of what was queued now. -/
lemma pending_pushes (s : Mesh G) (g g' : G) (n k : String) (offers : List (String × Offer)) (t : G → TallyTransport)
    (f : Fleet G) : (Mesh.pending ⟨f, t, s.queued ++ pushes g n k offers, s.posted, s.wire⟩ g').Perm
      ((if g' = g then queuedOf offers else []) ++ s.pending g') := by
  have hpushes : ((pushes g n k offers).filter fun push => push.sender = g').map Push.peer =
      if g' = g then queuedOf offers else [] := by
    unfold pushes
    by_cases hg : g' = g
    · subst hg
      rw [if_pos rfl, List.filter_eq_self.mpr (by simp), List.map_map]
      exact List.map_id' _
    · rw [if_neg hg, List.filter_eq_nil_iff.mpr (by simp [Ne.symm hg]), List.map_nil]
  unfold Mesh.pending
  simp only [List.filter_append, List.map_append, hpushes]
  refine List.Perm.trans ?_ (List.perm_append_comm_assoc _ _ _)
  rw [List.append_assoc]

/-- The counters go on counting. -/
lemma MeshStep.counts (h : MeshStep R S C epochOf parse E Reaches s e v)
    (hs : ∀ g, Counts (s.transport g) (s.pending g)) (g : G) : Counts (v.transport g) (v.pending g) := by
  have hframe : ∀ {t : TallyTransport}, t.inFlightByPeer = (s.transport g).inFlightByPeer →
      t.inFlightTotal = (s.transport g).inFlightTotal → Counts t (s.pending g) :=
    fun hby htotal => ⟨fun p => by rw [hby]; exact (hs g).byPeer p, by rw [htotal]; exact (hs g).total,
      (hs g).perPeer, (hs g).all⟩
  cases h with
  | @connect g' now n k u m t offers hclock hdial hcon hpub =>
    refine Counts.perm ?_ (pending_pushes s g' g n k offers _ _).symm
    dsimp only
    by_cases hg : g = g'
    · subst hg
      rw [if_pos rfl, Function.update_self]
      rcases publishOf_cases hcon hpub with ⟨rfl, rfl⟩ | ⟨-, -, -, hall⟩
      · exact hs g
      · have hcounts := TallyTransport.offerAll_counts (s.transport g).peerList (hs g)
        rwa [hall] at hcounts
    · rw [if_neg hg, Function.update_of_ne hg]
      exact hs g
  | @posted push hmem =>
    refine (hs g).perm ?_
    unfold Mesh.pending
    refine List.Perm.map _ (List.Perm.filter _ ?_)
    refine ((List.perm_cons_erase hmem).append_right s.posted).trans ?_
    exact List.perm_middle.symm
  | @settled push hmem =>
    have hperm : ∀ g, (s.queued ++ s.posted).filter (fun q => q.sender = g) |>.Perm
        ((push :: (s.queued ++ s.posted.erase push)).filter fun q => q.sender = g) := by
      intro g
      refine List.Perm.filter _ ?_
      refine ((List.perm_cons_erase hmem).append_left s.queued).trans ?_
      exact List.perm_middle
    by_cases hg : g = push.sender
    · subst hg
      have hpend : (s.pending push.sender).Perm
          (push.peer :: ((s.queued ++ s.posted.erase push).filter fun q => q.sender = push.sender).map Push.peer) := by
        have hmap := (hperm push.sender).map Push.peer
        rwa [List.filter_cons_of_pos (by simp), List.map_cons] at hmap
      have hsettle := (TallyTransport.settle_counts (hs push.sender)
        (hpend.mem_iff.mpr List.mem_cons_self)).1
      dsimp only
      rw [Function.update_self]
      refine hsettle.perm ?_
      have herase := hpend.erase push.peer
      rwa [List.erase_cons_head] at herase
    · dsimp only
      rw [Function.update_of_ne hg]
      refine (hs g).perm ?_
      have hmap := (hperm g).map Push.peer
      rwa [List.filter_cons_of_neg (by simpa using Ne.symm hg)] at hmap
  | @addPeer g' peer t added hadd =>
    dsimp only
    by_cases hg : g = g'
    · subst hg
      obtain ⟨-, hby, htotal⟩ := TallyTransport.addPeer_frame (t := s.transport g) (p := peer)
      rw [hadd] at hby htotal
      rw [Function.update_self]
      exact hframe hby htotal
    · rw [Function.update_of_ne hg]
      exact hs g
  | @close g' =>
    dsimp only
    by_cases hg : g = g'
    · subst hg
      obtain ⟨-, hby, htotal⟩ := TallyTransport.close_frame (t := s.transport g)
      rw [Function.update_self]
      exact hframe hby htotal
    · rw [Function.update_of_ne hg]
      exact hs g
  | _ => exact hs g

lemma MeshStep.peers (h : MeshStep R S C epochOf parse E Reaches s e v)
    (hs : ∀ g, PeersSound (s.transport g)) (g : G) : PeersSound (v.transport g) := by
  have hone : ∀ {g' : G} {t : TallyTransport}, PeersSound t → PeersSound (update s.transport g' t g) := by
    intro g' t ht
    by_cases hg : g = g'
    · subst hg
      rwa [Function.update_self]
    · rw [Function.update_of_ne hg]
      exact hs g
  have hlist : ∀ {g' : G} {t : TallyTransport}, t.peerList = (s.transport g').peerList → PeersSound t :=
    fun ht => ⟨ht ▸ (hs _).nodup, ht ▸ (hs _).length_le, fun p hp => (hs _).valid p (ht ▸ hp)⟩
  cases h with
  | @connect g' now n k u m t offers hclock hdial hcon hpub =>
    apply hone
    rcases publishOf_cases hcon hpub with ⟨rfl, -⟩ | ⟨-, -, -, hall⟩
    · exact hs g'
    · have hframe := (TallyTransport.offerAll_frame (s.transport g').peerList (t := s.transport g')).1
      rw [hall] at hframe
      exact hlist hframe
  | settled _ => exact hone (hlist rfl)
  | @addPeer g' peer t added hadd =>
    have hsound := TallyTransport.addPeer_sound (p := peer) (hs g')
    rw [hadd] at hsound
    exact hone hsound
  | close => exact hone (TallyTransport.close_sound (hs _))
  | _ => exact hs g

/-- A saturated peer stays so until a push to it comes to its end. -/
lemma MeshStep.saturated (h : MeshStep R S C epochOf parse E Reaches s e v)
    (hp : p ∈ (s.transport g).saturatedPeers) (hnot : ¬ e.Settles g p) : p ∈ (v.transport g).saturatedPeers := by
  have hone : ∀ {g' : G} {t : TallyTransport}, (g = g' → p ∈ t.saturatedPeers) →
      p ∈ (update s.transport g' t g).saturatedPeers := by
    intro g' t ht
    by_cases hg : g = g'
    · subst hg
      rw [Function.update_self]
      exact ht rfl
    · rwa [Function.update_of_ne hg]
  cases h with
  | @connect g' now n k u m t offers hclock hdial hcon hpub =>
    apply hone
    rintro rfl
    rcases publishOf_cases hcon hpub with ⟨rfl, -⟩ | ⟨-, -, -, hall⟩
    · exact hp
    · have hsat := TallyTransport.offerAll_saturated (s.transport g).peerList hp
      rwa [hall] at hsat
  | @settled push _ =>
    apply hone
    rintro rfl
    have hpeer : p ≠ push.peer := fun heq => hnot ⟨rfl, heq.symm⟩
    exact TallyTransport.settle_saturated hp hpeer
  | @addPeer g' peer t added hadd =>
    apply hone
    rintro rfl
    have hsat := (TallyTransport.addPeer_frame (t := s.transport g) (p := peer)).1
    rw [hadd] at hsat
    exact hsat ▸ hp
  | close =>
    apply hone
    rintro rfl
    rw [TallyTransport.close_frame.1]
    exact hp
  | _ => exact hp

/-- Who warns of a peer had not found it saturated, and does now. -/
lemma MeshStep.warned (h : MeshStep R S C epochOf parse E Reaches s e v) (hwarn : e.Warns g p) :
    p ∉ (s.transport g).saturatedPeers ∧ p ∈ (v.transport g).saturatedPeers := by
  cases h with
  | @connect g' now n k u m t offers hclock hdial hcon hpub =>
    obtain ⟨rfl, hmem⟩ := hwarn
    rcases publishOf_cases hcon hpub with ⟨-, rfl⟩ | ⟨-, -, -, hall⟩
    · cases hmem
    · have hwarned := TallyTransport.offerAll_warned (s.transport g').peerList (t := s.transport g')
        (q := p) (by rwa [hall])
      rw [hall] at hwarned
      refine ⟨hwarned.1, ?_⟩
      dsimp only
      rw [Function.update_self]
      exact hwarned.2
  | _ => exact hwarn.elim

end MeshInversion

/-! ### Runs of the mesh -/

section MeshRuns

variable {π κ G : Type} [DecidableEq G] {R : Rln π κ} {S : SpentConfig} {C : TallyCaps} {epochOf : String → ℤ}
  {parse : String → Option Value} {E : G → TallyEndpoint} {Reaches : String → G → Prop}
  {s v : Mesh G} {e : MeshEvent G} {tr : List (MeshEvent G)} {start : ℤ}

/-- The steps of the run that the fleet sees. -/
def seen (tr : List (MeshEvent G)) : List (FleetEvent G) := tr.filterMap MeshEvent.toFleet

/-- The gateway announced, itself or in a push that was made to a name of this one. -/
def Told (Reaches : String → G → Prop) (tr : List (MeshEvent G)) (wire : List (G × String × String)) (g : G)
    (n k : String) : Prop :=
  (g, n, k) ∈ wire ∨ ∃ push, MeshEvent.posted push ∈ tr ∧ Reaches push.peer g ∧ push.nullifier = n ∧
    push.epoch = k ∧ (push.sender, n, k) ∈ wire

variable (R S C epochOf Reaches start) in
/-- What is under way was announced, and all that a tally knows. -/
structure MeshSound (tr : List (MeshEvent G)) (s : Mesh G) : Prop where
  fleet : Run (Restrict (FleetStep R S C epochOf) FromWire) (.start start) (seen tr) s.fleet
  counts : ∀ g, Counts (s.transport g) (s.pending g)
  peers : ∀ g, PeersSound (s.transport g)
  announced : ∀ push, push ∈ s.queued ∨ push ∈ s.wire →
    (push.sender, push.nullifier, push.epoch) ∈ s.fleet.wire ∧
      canonicalTallyField push.nullifier = some push.nullifier ∧ canonicalTallyField push.epoch = some push.epoch
  posted : ∀ push ∈ s.wire, MeshEvent.posted push ∈ tr
  knows : ∀ g n k, (s.fleet.node g).tally.Knows n k → Told Reaches tr s.fleet.wire g n k
  once : ∀ push, tr.countP (·.delivers push) + s.wire.count push + s.queued.count push ≤
    tr.countP (·.connects push)

omit [DecidableEq G] in
lemma Told.mono {tr' : List (MeshEvent G)} {wire wire' : List (G × String × String)} {g : G} {n k : String}
    (h : Told Reaches tr wire g n k) (hwire : ∀ m ∈ wire, m ∈ wire') : Told Reaches (tr ++ tr') wire' g n k := by
  rcases h with hown | ⟨push, hmem, hreach, hn, hk, hw⟩
  · exact .inl (hwire _ hown)
  · exact .inr ⟨push, List.mem_append_left _ hmem, hreach, hn, hk, hwire _ hw⟩

/-- A push is counted where it is: announced, queued, under way or delivered. -/
lemma MeshSound.once_step (h : MeshSound R S C epochOf Reaches start tr s) (hparse : ReadsAnnouncements parse)
    (hst : MeshStep R S C epochOf parse E Reaches s e v) (push : Push G) :
    (tr ++ [e]).countP (·.delivers push) + v.wire.count push + v.queued.count push ≤
      (tr ++ [e]).countP (·.connects push) := by
  have hold := h.once push
  rw [List.countP_append, List.countP_append, List.countP_singleton, List.countP_singleton]
  have hleave : ∀ o, (leave s.wire o).count push ≤ s.wire.count push := by
    intro o
    cases o with
    | none => exact le_rfl
    | some p => exact List.Sublist.count_le push List.erase_sublist
  cases hst with
  | @connect g now n k u m t offers hclock hdial hcon hpub =>
    have hpushes : (pushes g n k offers).count push ≤
        if (MeshEvent.connect g now n k offers).connects push then 1 else 0 := by
      rcases publishOf_cases hcon hpub with ⟨-, rfl⟩ | ⟨-, -, -, hall⟩
      · exact Nat.zero_le _
      · have hpeers : offers.map Prod.fst = (s.transport g).peerList := by
          have := TallyTransport.offerAll_peers (s.transport g).peerList (t := s.transport g)
          rwa [hall] at this
        have hnodup : (pushes g n k offers).Nodup := by
          refine List.Nodup.map (fun p q hpq => (Push.mk.inj hpq).2.1) ?_
          refine List.Nodup.sublist (List.filter_sublist.map Prod.fst) ?_
          rw [hpeers]
          exact (h.peers g).nodup
        by_cases hmem : push ∈ pushes g n k offers
        · obtain ⟨p, -, rfl⟩ := List.mem_map.mp hmem
          rw [if_pos (by simp [MeshEvent.connects])]
          exact List.nodup_iff_count_le_one.mp hnodup _
        · rw [List.count_eq_zero_of_not_mem hmem]
          exact Nat.zero_le _
    have hdel : (MeshEvent.connect g now n k offers).delivers push = false := rfl
    rw [List.count_append, hdel]
    simp only [Bool.false_eq_true, if_false]
    omega
  | @posted p hmem =>
    have hq : (s.queued.erase p).count push + (if p = push then 1 else 0) = s.queued.count push := by
      by_cases hp : p = push
      · subst hp
        have hpos := List.count_pos_iff.mpr hmem
        rw [List.count_erase_self, if_pos rfl]
        omega
      · rw [List.count_erase_of_ne (Ne.symm hp), if_neg hp]
        rfl
    have hw : (p :: s.wire).count push = s.wire.count push + (if p = push then 1 else 0) := by
      rw [List.count_cons]
      simp only [beq_iff_eq]
    have hdel : (MeshEvent.posted p).delivers push = false := rfl
    have hcon : (MeshEvent.posted p).connects push = false := rfl
    rw [hw, hdel, hcon]
    simp only [Bool.false_eq_true, if_false]
    omega
  | @request g r o status horigin hserve =>
    have hle := hleave o
    have hdel : (MeshEvent.request g status).delivers push = false := rfl
    have hcon : (MeshEvent.request g status).connects push = false := rfl
    rw [hdel, hcon]
    simp only [Bool.false_eq_true, if_false]
    omega
  | @deliver g r o status now n k t stored horigin hserve hclock hin =>
    obtain ⟨p, rfl, hmem, -⟩ := horigin.delivers hparse (fun p hp => (h.announced p (.inr hp)).2) hserve
    have hcon : (MeshEvent.deliver (some p) g now n k stored).connects push = false := rfl
    have hdel : (MeshEvent.deliver (some p) g now n k stored).delivers push = decide (p = push) := rfl
    have hw : (s.wire.erase p).count push + (if p = push then 1 else 0) = s.wire.count push := by
      by_cases hp : p = push
      · subst hp
        have hpos := List.count_pos_iff.mpr hmem
        rw [List.count_erase_self, if_pos rfl]
        omega
      · rw [List.count_erase_of_ne (Ne.symm hp), if_neg hp]
        rfl
    rw [hcon, hdel]
    simp only [leave, Bool.false_eq_true, if_false]
    by_cases hp : p = push
    · rw [if_pos hp] at hw
      rw [if_pos (decide_eq_true hp)]
      omega
    · rw [if_neg hp] at hw
      rw [decide_eq_false hp, if_neg Bool.false_ne_true]
      omega
  | fleet _ _ => exact hold
  | settled _ => exact hold
  | addPeer _ => exact hold
  | close => exact hold

/-- One more step. -/
lemma MeshSound.step (h : MeshSound R S C epochOf Reaches start tr s) (hparse : ReadsAnnouncements parse)
    (hst : MeshStep R S C epochOf parse E Reaches s e v) : MeshSound R S C epochOf Reaches start (tr ++ [e]) v := by
  have hdelivered : ∀ {o g now n k stored}, e = .deliver o g now n k stored →
      ∃ push, MeshEvent.posted push ∈ tr ∧ Reaches push.peer g ∧ push.nullifier = n ∧ push.epoch = k ∧
        (push.sender, n, k) ∈ s.fleet.wire := by
    rintro o g now n k stored rfl
    cases hst with
    | deliver horigin hserve hclock hin =>
      obtain ⟨push, -, hmem, hreach, rfl, rfl⟩ :=
        horigin.delivers hparse (fun p hp => (h.announced p (.inr hp)).2) hserve
      exact ⟨push, h.posted push hmem, hreach, rfl, rfl, (h.announced push (.inr hmem)).1⟩
  refine ⟨?_, hst.counts h.counts, hst.peers h.peers, fun push hpush => ?_, fun push hpush => ?_, fun g n k hknows => ?_,
    h.once_step hparse hst⟩
  · unfold seen
    rw [List.filterMap_append]
    rcases hst.fleet_step with ⟨c, hc, hstep⟩ | ⟨hc, hsame⟩
    · simp only [List.filterMap_cons, hc, List.filterMap_nil]
      refine h.fleet.snoc ⟨?_, hstep⟩
      cases c with
      | deliver g now n k stored =>
        cases e with
        | deliver o g' now' n' k' stored' =>
          obtain ⟨rfl, rfl, rfl, rfl, rfl⟩ := FleetEvent.deliver.inj (Option.some.inj hc)
          obtain ⟨push, -, -, -, -, hw⟩ := hdelivered rfl
          exact ⟨push.sender, hw⟩
        | fleet c' =>
          obtain rfl := Option.some.inj hc
          cases hst with
          | fleet hquiet _ => cases hquiet
        | _ => cases hc
      | _ => trivial
    · simp only [List.filterMap_cons, hc, List.filterMap_nil, List.append_nil, hsame]
      exact h.fleet
  · have hkept : ∀ {push : Push G}, push ∈ s.queued ∨ push ∈ s.wire →
        (push.sender, push.nullifier, push.epoch) ∈ v.fleet.wire ∧
          canonicalTallyField push.nullifier = some push.nullifier ∧
          canonicalTallyField push.epoch = some push.epoch :=
      fun hp => ⟨hst.published _ (h.announced _ hp).1, (h.announced _ hp).2⟩
    rcases hpush with hq | hw
    · rcases hst.push.2 hq with hold | hnew
      · exact hkept (.inl hold)
      · exact hnew
    · rcases hst.push.1 hw with hold | ⟨hold, -⟩
      · exact hkept (.inr hold)
      · exact hkept (.inl hold)
  · rcases hst.push.1 hpush with hold | ⟨-, rfl⟩
    · exact List.mem_append_left _ (h.posted push hold)
    · exact List.mem_append_right _ (List.mem_singleton_self _)
  · rcases hst.fleet_step with ⟨c, hc, hstep⟩ | ⟨-, hsame⟩
    · rcases hstep.knows hknows with hold | hown | ⟨now, stored, rfl⟩
      · exact (h.knows g n k hold).mono hst.published
      · exact .inl hown
      · cases e with
        | deliver o g' now' n' k' stored' =>
          obtain ⟨rfl, rfl, rfl, rfl, rfl⟩ := FleetEvent.deliver.inj (Option.some.inj hc)
          exact Told.mono (.inr (hdelivered rfl)) hst.published
        | fleet c' =>
          obtain rfl := Option.some.inj hc
          cases hst with
          | fleet hquiet _ => cases hquiet
        | _ => cases hc
    · rw [hsame] at hknows
      exact (h.knows g n k hknows).mono hst.published

lemma mesh_run_sound {transport : G → TallyTransport} {peers : G → List String} (hparse : ReadsAnnouncements parse)
    (hmade : ∀ g, TallyTransport.make (peers g) = some (transport g))
    (h : Run (MeshStep R S C epochOf parse E Reaches) (.start start transport) tr s) :
    MeshSound R S C epochOf Reaches start tr s := by
  refine h.invariant (I := MeshSound R S C epochOf Reaches start) ⟨.nil, ?_, ?_, ?_, ?_, ?_, ?_⟩ ?_
  · intro g
    exact (TallyTransport.make_sound (hmade g)).2.1
  · intro g
    exact (TallyTransport.make_sound (hmade g)).1
  · rintro push (hq | hw)
    · cases hq
    · cases hw
  · intro push hw
    cases hw
  · rintro g n k ⟨b, hb, -⟩
    cases hb
  · intro push
    exact le_rfl
  · intro tr s e v _ hs hst
    exact hs.step hparse hst

/-- Between two warnings of one peer a push to it came to its end. -/
lemma settled_between {transport : G → TallyTransport}
    (h : Run (MeshStep R S C epochOf parse E Reaches) (.start start transport) tr s) {tr₁ tr₂ tr₃ : List (MeshEvent G)}
    {e₁ e₂ : MeshEvent G} {g : G} {p : String} (htr : tr = tr₁ ++ e₁ :: (tr₂ ++ e₂ :: tr₃))
    (hwarn₁ : e₁.Warns g p) (hwarn₂ : e₂.Warns g p) : ∃ e ∈ tr₂, e.Settles g p := by
  subst htr
  obtain ⟨s₁, -, hrun⟩ := h.split
  obtain ⟨s₂, hst₁, hrun⟩ := hrun.uncons
  obtain ⟨s₃, hrun₂, hrun⟩ := hrun.split
  obtain ⟨s₄, hst₂, -⟩ := hrun.uncons
  by_contra hnone
  have hsat : (∀ e ∈ tr₂, ¬ e.Settles g p) → p ∈ (s₃.transport g).saturatedPeers := by
    refine hrun₂.invariant (I := fun tr s => (∀ e ∈ tr, ¬ e.Settles g p) → p ∈ (s.transport g).saturatedPeers) ?_ ?_
    · intro _
      exact (hst₁.warned hwarn₁).2
    · intro tr t e u _ ih hst hall
      refine hst.saturated (ih fun e he => hall e (List.mem_append_left _ he)) ?_
      exact hall e (List.mem_append_right _ (List.mem_singleton_self _))
  exact (hst₂.warned hwarn₂).1 (hsat fun e he hsettles => hnone ⟨e, he, hsettles⟩)

/-- Who is passed over in an announcement has as much under way as it may, or all peers together have. -/
lemma MeshStep.passed_over {g : G} {now : ℤ} {n k p : String} {offers : List (String × Offer)} {warned : Bool}
    (hst : MeshStep R S C epochOf parse E Reaches s (.connect g now n k offers) v)
    (hs : Counts (s.transport g) (s.pending g)) (hdrop : (p, .dropped warned) ∈ offers) : Full (v.pending g) p := by
  cases hst with
  | @connect _ _ _ _ u m t _ hclock hdial hcon hpub =>
    rcases publishOf_cases hcon hpub with ⟨-, rfl⟩ | ⟨-, -, -, hall⟩
    · cases hdrop
    · have hfull := TallyTransport.offerAll_full (s.transport g).peerList hs (w := warned) (q := p)
        (by rwa [hall])
      have hperm := pending_pushes s g g n k offers (Function.update s.transport g t)
        ⟨now, Function.update s.fleet.node g u, s.fleet.wire ++ (m.map fun m => (g, m)).toList⟩
      rw [if_pos rfl] at hperm
      unfold Full at hfull ⊢
      rw [hperm.count_eq, hperm.length_eq]
      rwa [hall] at hfull

end MeshRuns

/-! ### What the mesh keeps -/

section MeshLaws

variable {π κ G : Type} [DecidableEq G]

/-- Of its own announcements the fleet remembers every one that is stored. -/
lemma own_delivery_refuses {R : Rln π κ} {S : SpentConfig} {C : TallyCaps} {epochOf : String → ℤ} {start : ℤ}
    {tr : List (FleetEvent G)} {f f' : Fleet G} {g : G} {now : ℤ} {n k : String}
    (h : Run (Restrict (FleetStep R S C epochOf) FromWire) (.start start) tr f)
    (hst : Restrict (FleetStep R S C epochOf) FromWire f (.deliver g now n k true) f') :
    RefusesFrom R S C epochOf f' g n k := by
  intro tr' t later answer u hrun hadm hnone
  obtain ⟨hn, hk⟩ : canonicalTallyField n = some n ∧ canonicalTallyField k = some k := by
    cases hst.2 with
    | deliver hclock hin =>
      obtain ⟨hn, hk, -⟩ := FleetTally.ingest_stored (congrArg Prod.snd hin)
      exact ⟨hn, hk⟩
  have hmarked : Marked R epochOf t g n k :=
    hrun.invariant_state (I := fun t => Marked R epochOf t g n k)
      (marked_of_lands hst.2 (own_announcements_land R S C epochOf h hst)) fun _ _ _ hm hstep => hm.step hstep
  exact hmarked.refuses hn hk hadm hnone

/-- **The mesh.**  Whoever has no token is not heard: the fleet is one whose messages are its own, a gateway
refuses an envelope for its tally only if a tunnel was established under the nullifier here or at a gateway that
pushed it here, and what is delivered and stored is refused from then on.  A push that arrives whole at an open
gateway of the same path and token, and fits, is heard; it is delivered at most once for every time its gateway
announces.  The counters count the pushes that have not come to their end, within their
bounds; who is passed over has as much under way as it may; and between two warnings of a peer a push to it comes
to its end. -/
theorem announcements_keep_provenance (R : Rln π κ) (S : SpentConfig) (C : TallyCaps) (epochOf : String → ℤ)
    {parse : String → Option Value} (hparse : ReadsAnnouncements parse) (E : G → TallyEndpoint)
    (Reaches : String → G → Prop) {peers : G → List String} {transport : G → TallyTransport}
    (hmade : ∀ g, TallyTransport.make (peers g) = some (transport g)) {start : ℤ} {tr : List (MeshEvent G)}
    {s : Mesh G} (h : Run (MeshStep R S C epochOf parse E Reaches) (.start start transport) tr s) :
    Run (Restrict (FleetStep R S C epochOf) FromWire) (.start start) (seen tr) s.fleet ∧
    (∀ g now n k share nonce, (s.fleet.node g).spent.seen n = none →
      ((s.fleet.node g).admitEnvelope S (ttlMs R) now n k (some share) nonce).2.ok = false →
      Established (seen tr) g n k ∨ ∃ push, MeshEvent.posted push ∈ tr ∧ Reaches push.peer g ∧
        push.nullifier = n ∧ push.epoch = k ∧ Established (seen tr) push.sender n k) ∧
    (∀ o g now n k v, MeshStep R S C epochOf parse E Reaches s (.deliver o g now n k true) v →
      RefusesFrom R S C epochOf v.fleet g n k) ∧
    (∀ push g chunks, push ∈ s.wire → chunks.flatten = payload push.nullifier push.epoch →
      (s.transport g).closed = false → (E push.sender).path = (E g).path →
      (E push.sender).authToken = (E g).authToken →
      (payload push.nullifier push.epoch).length ≤ (E g).maxBytes →
      serve parse (E g) (s.transport g).closed
        (pushRequest (E push.sender) push.nullifier push.epoch chunks true) =
          (some 200, some (push.nullifier, push.epoch))) ∧
    (∀ push, tr.countP (·.delivers push) ≤ tr.countP (·.connects push)) ∧
    (∀ g, PeersSound (s.transport g) ∧ Counts (s.transport g) (s.pending g)) ∧
    (∀ g now n k offers v, MeshStep R S C epochOf parse E Reaches s (.connect g now n k offers) v →
      ∀ p warned, (p, Offer.dropped warned) ∈ offers → Full (v.pending g) p) ∧
    ∀ tr₁ e₁ tr₂ e₂ tr₃ g p, tr = tr₁ ++ e₁ :: (tr₂ ++ e₂ :: tr₃) → e₁.Warns g p → e₂.Warns g p →
      ∃ e ∈ tr₂, e.Settles g p := by
  have hsound := mesh_run_sound hparse hmade h
  have hestablished := (run_sound hsound.fleet.forget).2.2
  refine ⟨hsound.fleet, fun g now n k share nonce hnone hrefused => ?_, fun o g now n k v hst => ?_,
    fun push g chunks hmem hwhole hopen hpath htoken hfits => ?_, fun push => ?_,
    fun g => ⟨hsound.peers g, hsound.counts g⟩, fun g now n k offers v hst p warned => hst.passed_over (hsound.counts g),
    fun tr₁ e₁ tr₂ e₂ tr₃ g p htr => settled_between h htr⟩
  · rw [Node.admit_unseen hnone, Bool.not_eq_false'] at hrefused
    have hknows : (s.fleet.node g).tally.Knows n k := by
      cases hn : canonicalTallyField n with
      | none => simp [FleetTally.has, hn] at hrefused
      | some n' =>
        cases hk : canonicalTallyField k with
        | none => simp [FleetTally.has, hn, hk] at hrefused
        | some k' =>
          obtain rfl := FleetTally.canonicalTallyField_some hn
          obtain rfl := FleetTally.canonicalTallyField_some hk
          obtain ⟨b, hb, -, hmem⟩ := (FleetTally.has_iff hn hk).mp hrefused
          exact ⟨b, hb, hmem⟩
    rcases hsound.knows g n k hknows with hown | ⟨push, hmem, hreach, hn, hk, hw⟩
    · exact .inl (hestablished g n k hown)
    · exact .inr ⟨push, hmem, hreach, hn, hk, hestablished push.sender n k hw⟩
  · have hnext := (hsound.step hparse hst).fleet
    unfold seen at hnext
    rw [List.filterMap_append] at hnext
    obtain ⟨f, hrun, hlast⟩ := hnext.split
    obtain ⟨f', hstep, hend⟩ := hlast.uncons
    obtain rfl := hend.of_nil
    exact own_delivery_refuses hrun hstep
  · obtain ⟨-, hn, hk⟩ := hsound.announced push (.inr hmem)
    rw [hopen]
    exact serve_push hparse hpath htoken hn hk hwhole hfits
  · have := hsound.once push
    omega

end MeshLaws

/-! ### Two gateways of a mesh -/

section TwoNodes

/-- All characters of a canonical field are digits. -/
lemma canonical_char {s : String} (h : canonicalTallyField s = some s) {c : Char} (hc : c ∈ s.toList) :
    48 ≤ c.toNat ∧ c.toNat ≤ 57 := by
  have hread : isCanonicalDecimal s = true ∧ ∃ m, denotedInteger s = some m := by
    unfold canonicalTallyField at h
    split at h
    · next hs =>
      cases hm : denotedInteger s with
      | none => simp [hm] at hs
      | some m => exact ⟨hs.1, m, rfl⟩
    · cases h
  obtain ⟨hs, m, hm⟩ := hread
  rcases canonical_digits hs hm with ⟨hzero, -⟩ | ⟨ds, hds, -, -⟩
  · rw [hzero] at hc
    obtain rfl := List.mem_singleton.mp hc
    decide
  · have hmem : decimalDigit c ∈ ds.map some := hds ▸ List.mem_map_of_mem hc
    obtain ⟨d, -, hd⟩ := List.mem_map.mp hmem
    have := decimalDigit_some hd.symm
    omega

lemma quote_canonical {s : String} (h : canonicalTallyField s = some s) :
    Json.quote s = '"' :: (s.toList ++ ['"']) := by
  have hplain : ∀ c ∈ s.toList, Json.escape c = [c] := by
    intro c hc
    have hrange := canonical_char h hc
    have hquote : c ≠ '"' := by
      rintro rfl
      revert hrange
      decide
    have hslash : c ≠ '\\' := by
      rintro rfl
      revert hrange
      decide
    unfold Json.escape
    rw [if_neg hquote, if_neg hslash, if_neg (by omega), if_neg (by omega), if_neg (by omega), if_neg (by omega),
      if_neg (by omega), if_neg (by omega)]
  unfold Json.quote
  rw [List.flatMap_congr hplain, List.flatMap_singleton']

/-- A reader that knows announcements only. -/
def sampleParse (s : String) : Option Value :=
  let rest := s.toList.drop 14
  let n := String.ofList (rest.takeWhile (· != '"'))
  let k := String.ofList (((rest.dropWhile (· != '"')).drop 11).takeWhile (· != '"'))
  if s.toList = (announcement n k).stringify then some (announcement n k) else none

lemma announcement_text {n k : String} (hn : canonicalTallyField n = some n) (hk : canonicalTallyField k = some k) :
    (announcement n k).stringify =
      "\x7b\"nullifier\":\"".toList ++ (n.toList ++ ("\",\"epoch\":\"".toList ++ (k.toList ++ "\"\x7d".toList))) := by
  have hfirst : Json.quote "nullifier" = "\"nullifier\"".toList := by decide
  have hsecond : Json.quote "epoch" = "\"epoch\"".toList := by decide
  simp [announcement, Value.stringify, Json.bind, Json.bindFields, Json.write, Json.writeFields, quote_canonical hn,
    quote_canonical hk, hfirst, hsecond]

lemma sampleParse_reads : ReadsAnnouncements sampleParse := by
  intro n k hn hk
  have hquote : ∀ {s : String}, canonicalTallyField s = some s → ∀ c ∈ s.toList, (c != '"') = true := by
    intro s hs c hc
    have hrange := canonical_char hs hc
    have hval : '"'.toNat = 34 := rfl
    simp only [bne_iff_ne, ne_eq]
    rintro rfl
    omega
  have htext := announcement_text hn hk
  have hrest : (String.ofList (announcement n k).stringify).toList.drop 14 =
      n.toList ++ '"' :: (",\"epoch\":\"".toList ++ (k.toList ++ "\"\x7d".toList)) := by
    rw [String.toList_ofList, htext]
    rfl
  have hfirst : ((String.ofList (announcement n k).stringify).toList.drop 14).takeWhile (· != '"') = n.toList := by
    rw [hrest, List.takeWhile_append_of_pos (hquote hn), List.takeWhile_cons_of_neg (by decide), List.append_nil]
  have hsecond : ((((String.ofList (announcement n k).stringify).toList.drop 14).dropWhile (· != '"')).drop 11).takeWhile
      (· != '"') = k.toList := by
    rw [hrest, List.dropWhile_append_of_pos (hquote hn), List.dropWhile_cons_of_neg (by decide)]
    have hdrop : ('"' :: (",\"epoch\":\"".toList ++ (k.toList ++ "\"\x7d".toList))).drop 11 =
        k.toList ++ "\"\x7d".toList := rfl
    rw [hdrop, List.takeWhile_append_of_pos (hquote hk)]
    have hend : "\"\x7d".toList.takeWhile (· != '"') = [] := by decide
    rw [hend, List.append_nil]
  unfold sampleParse
  dsimp only
  rw [hfirst, hsecond, String.ofList_toList, String.ofList_toList, String.toList_ofList, if_pos rfl]

/-- The push of the first gateway. -/
def samplePush : Push Bool := ⟨false, "b.onion", "7", "105"⟩

lemma samplePath_valid : validPath "/fleet-tally".toList = true := by decide

lemma sampleToken_valid : validTallyToken "0123456789abcdef0123456789abcdef" = true := by decide

def sampleEndpoint : TallyEndpoint :=
  ⟨"/fleet-tally", "0123456789abcdef0123456789abcdef", 8192, samplePath_valid, sampleToken_valid⟩

/-- The first gateway has the second one as its peer. -/
def samplePeers (g : Bool) : List String := if g then [] else ["b.onion"]

def sampleTransport (g : Bool) : TallyTransport := ⟨samplePeers g, ∅, 0, [], false⟩

lemma sample_made (g : Bool) : TallyTransport.make (samplePeers g) = some (sampleTransport g) := by
  cases g with
  | true => rfl
  | false =>
    have hvalid : ¬ (maxPeers < (samplePeers false).length ∨ (samplePeers false).any (!validPeer ·) = true) := by decide
    unfold TallyTransport.make
    rw [if_neg hvalid]
    rfl

/-- The steps of two gateways in the epoch 5, where the name of the second one is known. -/
abbrev TwoNodes : Mesh Bool → MeshEvent Bool → Mesh Bool → Prop :=
  MeshStep oneSlotRln slashingConfig defaultCaps (fun _ => 5) sampleParse (fun _ => sampleEndpoint)
    fun peer g => peer = "b.onion" ∧ g = true

/-- The first gateway admits a tunnel, the tunnel connects, and the push begins. -/
lemma push_begins : ∃ tr s, Run TwoNodes (.start 600000 sampleTransport) tr s ∧ s.fleet.clock = 600000 ∧
    samplePush ∈ s.wire ∧ s.fleet.node true = .start ∧ s.transport true = sampleTransport true := by
  have hadm : FleetStep oneSlotRln slashingConfig defaultCaps (fun _ => 5) (.start 600000) _ _ :=
    .of_admitted (g := false) (n := "7") (k := "105") (some ⟨"1", "a"⟩) none (le_refl (600000 : ℤ)) (.inl (by decide))
  have h₁ : Run TwoNodes (.start 600000 sampleTransport) _ _ := .single (.fleet rfl hadm)
  have h₂ := h₁.snoc (.connect (g := false) (n := "7") (k := "105") (le_refl (600000 : ℤ)) List.mem_cons_self rfl rfl)
  have h₃ := h₂.snoc (.posted (show samplePush ∈ _ by decide))
  exact ⟨_, _, h₃, rfl, List.mem_cons_self, rfl, rfl⟩

lemma sample_fits : (payload "7" "105").length ≤ 8192 := by decide

/-- What the first gateway announces is delivered to the second one, which refuses it from then on. -/
theorem announcements_keep_provenance_delivered : ∃ tr s v,
    Run TwoNodes (.start 600000 sampleTransport) tr s ∧
    TwoNodes s (.deliver (some samplePush) true 600000 "7" "105" true) v ∧
    RefusesFrom oneSlotRln slashingConfig defaultCaps (fun _ => 5) v.fleet true "7" "105" := by
  obtain ⟨tr, s, hrun, hclock, hpush, hnode, htransport⟩ := push_begins
  have hserve : serve sampleParse sampleEndpoint (s.transport true).closed
      (pushRequest sampleEndpoint "7" "105" [payload "7" "105"] true) = (some 200, some ("7", "105")) := by
    rw [htransport]
    exact serve_push sampleParse_reads rfl rfl rfl rfl (List.append_nil _) sample_fits
  have hwhole : [payload "7" "105"].flatten = payload samplePush.nullifier samplePush.epoch := List.append_nil _
  have hstep : TwoNodes s (.deliver (some samplePush) true 600000 "7" "105" true) _ :=
    .deliver (.push hpush ⟨rfl, rfl⟩ ⟨hwhole ▸ List.prefix_refl _, fun _ => hwhole⟩ rfl) hserve hclock.le
      (Prod.ext rfl (by rw [hnode]; rfl))
  refine ⟨tr, s, _, hrun, hstep, ?_⟩
  exact (announcements_keep_provenance oneSlotRln slashingConfig defaultCaps (fun _ => 5) sampleParse_reads
    (fun _ => sampleEndpoint) _ sample_made hrun).2.2.1 _ _ _ _ _ _ hstep

end TwoNodes

end ShadeTree.Gateway
