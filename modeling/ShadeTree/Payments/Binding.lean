import Mathlib
import ShadeTree.Payments.RoundTrip

/-!
# What an accepted credential is bound to

The code of a challenge is over its seven slots with `|` between them.  A realm with `|` in it makes the text
ambiguous; apart from that the slots that verify are those that were issued.
-/

namespace ShadeTree.Payments

open ShadeTree.Lib ShadeTree.Lib.Text

/-- `contentDigest(bodyBytes)`. -/
def contentDigest (sha256 : List UInt8 → List UInt8) (bodyBytes : List UInt8) : String :=
  String.ofList ("sha-256=:".toList ++ Base64.encode false (sha256 bodyBytes) ++ [':'])

/-- A challenge that the server has issued: for some offer that it had at the time, at any time, and either for no
body or for the digest of one. -/
def FromServer (R : Platform) (sha256 : List UInt8 → List UInt8) (secret : String) (c : MppChallenge) : Prop :=
  ∃ offer limit digest nowMs random, (digest = "" ∨ ∃ bodyBytes, digest = contentDigest sha256 bodyBytes) ∧
    mppChallenge R offer limit secret digest nowMs random = some c

/-- The code that is echoed, if it verifies, is that of a challenge that was issued. -/
def Unforged (R : Platform) (secret : String) (issued : Set MppChallenge) (challenge : Option Value) : Prop :=
  ∀ slots, text (field challenge "id") = some (mppChallengeId R secret slots) →
    ∃ c ∈ issued, c.id = mppChallengeId R secret slots

/-! ### What is accepted -/

/-- What the server has found in the credential that it accepts. -/
structure Accepted (R : Platform) (secret : String) (offer : Offer) (bodyDigest : Option String) (nowMs : ℤ)
    (r : MppPayment) (slots : Slots) : Prop where
  echoed : echoedSlots r.challenge = some slots
  method : slots.method = MPP_METHOD
  intent : slots.intent = MPP_INTENT
  realm : slots.realm = offer.realm
  id : text (field r.challenge "id") = some (mppChallengeId R secret slots)
  expires : ∃ ms, R.dateParse slots.expires = some ms ∧ nowMs < ms
  digest : slots.digest ≠ "" → bodyDigest = some slots.digest
  request : (b64decode true slots.request).bind (jsonParseSafe R.parse) = some r.request
  limit : tierForAmount offer (r.request.get "amount") = some r.limit
  currency : sameAddress (r.request.get "currency") (some (.str offer.asset)) = true
  recipient : sameAddress (r.request.get "recipient") (some (.str offer.payTo)) = true
  shape : checkAuthorizationShape r.authorization = none
  payee : sameAddress (field r.authorization "to") (r.request.get "recipient") = true
  value : text (field r.authorization "value") = text (r.request.get "amount")
  nonce : (text (field r.authorization "nonce")).map lower =
    (text (field r.challenge "id")).map fun id => mppNonce R id slots.realm

lemma text_eq_some {v : Option Value} {s : String} : text v = some s ↔ v = some (.str s) := by
  constructor
  · intro h
    obtain ⟨w, rfl, hw⟩ := Option.bind_eq_some_iff.mp h
    cases w <;> cases hw
    rfl
  · rintro rfl
    rfl

lemma echoedSlots_eq_some {ch : Option Value} {slots : Slots} (h : echoedSlots ch = some slots) :
    text (field ch "realm") = some slots.realm ∧ text (field ch "method") = some slots.method ∧
      text (field ch "intent") = some slots.intent ∧ slotText (field ch "digest") = some slots.digest := by
  unfold echoedSlots at h
  obtain ⟨realm, hrealm, h⟩ := Option.bind_eq_some_iff.mp h
  obtain ⟨method, hmethod, h⟩ := Option.bind_eq_some_iff.mp h
  obtain ⟨intent, hintent, h⟩ := Option.bind_eq_some_iff.mp h
  obtain ⟨request, hrequest, h⟩ := Option.bind_eq_some_iff.mp h
  obtain ⟨expires, hexpires, h⟩ := Option.bind_eq_some_iff.mp h
  obtain ⟨digest, hdigest, h⟩ := Option.bind_eq_some_iff.mp h
  obtain ⟨data, hdata, h⟩ := Option.bind_eq_some_iff.mp h
  obtain rfl := Option.some.inj h
  exact ⟨hrealm, hmethod, hintent, hdigest⟩

/-- The digest that is echoed, once it has been compared with that of the body. -/
lemma digest_of_check {v : Option Value} {digest : String} {bodyDigest : Option String}
    (hslot : slotText v = some digest)
    (hcheck : ¬ ((truthyOf v).isSome = true ∧ (bodyDigest.getD "" = "" ∨ text v ≠ bodyDigest)))
    (hne : digest ≠ "") : bodyDigest = some digest := by
  cases v with
  | none => exact absurd (Option.some.inj hslot).symm hne
  | some v =>
    by_cases htruthy : v.truthy = true
    · have hsome : (truthyOf (some v)).isSome = true := by simp [truthyOf, htruthy]
      obtain ⟨hbody, htext⟩ := not_or.mp fun h => hcheck ⟨hsome, h⟩
      have htext : text (some v) = bodyDigest := not_not.mp htext
      cases bodyDigest with
      | none => exact absurd rfl hbody
      | some d =>
        obtain rfl := Option.some.inj (text_eq_some.mp htext)
        rw [slotText_str] at hslot
        exact hslot
    · simp only [slotText, htruthy] at hslot
      exact absurd (Option.some.inj hslot).symm hne

lemma ok_of_if {ε α : Type} {c : Prop} [Decidable c] {e : ε} {x : Except ε α} {r : α}
    (h : (if c then .error e else x) = Except.ok r) : ¬ c ∧ x = .ok r := by
  by_cases hc : c
  · rw [if_pos hc] at h
    cases h
  · rw [if_neg hc] at h
    exact ⟨hc, h⟩

theorem accepted_of_ok {R : Platform} {header : Option String} {secret : String} {offer : Offer}
    {bodyDigest : Option String} {nowMs : ℤ} {r : MppPayment}
    (h : parseMppCredential R header secret offer bodyDigest nowMs = .ok r) :
    ∃ slots, Accepted R secret offer bodyDigest nowMs r slots := by
  unfold parseMppCredential at h
  split at h
  · cases h
  next header =>
  split at h
  · cases h
  next group hgroup =>
  split at h
  · cases h
  next cred hcred =>
  obtain ⟨-, h⟩ := ok_of_if h
  split at h
  · cases h
  next hmissing =>
  obtain ⟨hkind, h⟩ := ok_of_if h
  obtain ⟨hrealm, h⟩ := ok_of_if h
  split at h
  · cases h
  next slots hslots =>
  obtain ⟨hid, h⟩ := ok_of_if h
  split at h
  · cases h
  next expires hexpires =>
  obtain ⟨hnow, h⟩ := ok_of_if h
  obtain ⟨hdigest, h⟩ := ok_of_if h
  split at h
  · cases h
  next req hreq =>
  split at h
  · cases h
  next limit hlimit =>
  obtain ⟨hoffer, h⟩ := ok_of_if h
  obtain ⟨-, h⟩ := ok_of_if h
  obtain ⟨-, h⟩ := ok_of_if h
  dsimp only at h
  split at h
  · cases h
  next hshape =>
  split at h
  · cases h
  next signature hsignature =>
  obtain ⟨-, h⟩ := ok_of_if h
  obtain ⟨hto, h⟩ := ok_of_if h
  obtain ⟨hvalue, h⟩ := ok_of_if h
  obtain ⟨hnonce, h⟩ := ok_of_if h
  obtain rfl := (Except.ok.inj h).symm
  obtain ⟨hr, hm, hi, hd⟩ := echoedSlots_eq_some hslots
  obtain ⟨hmethod, hintent⟩ := not_or.mp hkind
  obtain ⟨hcurrency, hrecipient⟩ := not_or.mp hoffer
  refine ⟨slots, hslots, ?_, ?_, ?_, not_not.mp hid, ?_, digest_of_check hd hdigest, hreq, hlimit,
    Bool.eq_true_of_not_eq_false hcurrency, Bool.eq_true_of_not_eq_false hrecipient, hshape,
    Bool.eq_true_of_not_eq_false hto, not_not.mp hvalue, not_not.mp hnonce⟩
  · exact Option.some.inj (hm.symm.trans (not_not.mp hmethod))
  · exact Option.some.inj (hi.symm.trans (not_not.mp hintent))
  · exact Option.some.inj (hr.symm.trans (not_not.mp hrealm))
  · split at hexpires
    · exact ⟨expires, hexpires, by omega⟩
    · cases hexpires

/-! ### One text, one list of slots -/

/-- No slot but the realm has the separator in it. -/
def Slots.Apart (slots : Slots) : Prop :=
  ∀ s ∈ [slots.method, slots.intent, slots.request, slots.expires, slots.digest, slots.data], '|' ∉ s.toList

lemma pipe_notMem_b64url (s : String) : '|' ∉ (b64url s).toList := by
  have hall : ∀ c ∈ Base64.alphabet true, c ≠ '|' := Text.forall_of_all (by decide)
  intro h
  rw [b64url, String.toList_ofList] at h
  exact hall '|' (Base64.mem_encode_url h) rfl

lemma pipe_notMem_contentDigest (sha256 : List UInt8 → List UInt8) (bodyBytes : List UInt8) :
    '|' ∉ (contentDigest sha256 bodyBytes).toList := by
  have hall : ∀ c ∈ Base64.alphabet false, c ≠ '|' := Text.forall_of_all (by decide)
  have hname : '|' ∉ "sha-256=:".toList := by decide
  obtain ⟨body, n, htext, hbody, -, -⟩ := Base64.encode_standard (sha256 bodyBytes)
  have hdigest : (contentDigest sha256 bodyBytes).toList =
      "sha-256=:".toList ++ Base64.encode false (sha256 bodyBytes) ++ [':'] := String.toList_ofList
  intro h
  rw [hdigest, List.mem_append, List.mem_append, List.mem_singleton] at h
  rcases h with (h | h) | h
  · exact hname h
  · rcases List.mem_append.mp (htext ▸ h) with h | h
    · exact hall '|' (hbody '|' h) rfl
    · exact absurd (List.eq_of_mem_replicate h) (by decide)
  · exact absurd h (by decide)

lemma Issued.apart {R : Platform} {offer : Offer} {limit : ℕ} {secret digest : String} {c : MppChallenge}
    (h : Issued R offer limit secret digest c) (hdigest : '|' ∉ digest.toList) : c.slots.Apart := by
  obtain ⟨text, -, hrequest⟩ := h.request
  obtain ⟨date, hdate, hexpires⟩ := h.expires
  obtain ⟨data, hdata⟩ := h.data
  unfold Slots.Apart
  rw [h.method, h.intent, h.digest, hrequest, hexpires, hdata]
  simp only [List.forall_mem_cons]
  refine ⟨by decide, by decide, pipe_notMem_b64url _, ?_, hdigest, pipe_notMem_b64url _, fun s hs => by cases hs⟩
  rw [String.toList_ofList, List.mem_append, List.mem_singleton]
  rintro (hc | hc)
  · exact absurd (hdate '|' hc) (by decide)
  · exact absurd hc (by decide)

/-- The separators that an issued text has stand between its slots, or in its realm. -/
theorem Slots.input_inj {slots slots' : Slots} (hapart : slots'.Apart)
    (hrealm : slots.realm = slots'.realm ∨ '|' ∉ slots'.realm.toList) (h : slots.input = slots'.input) :
    slots = slots' := by
  have hlist := congrArg String.toList h
  unfold Slots.input at hlist
  rw [String.toList_ofList, String.toList_ofList] at hlist
  have hparts : ∀ part ∈ [slots'.method, slots'.intent, slots'.request, slots'.expires, slots'.digest,
      slots'.data].map String.toList, '|' ∉ part := by
    intro part hp
    obtain ⟨s, hs, rfl⟩ := List.mem_map.mp hp
    exact hapart s hs
  have key : slots.realm.toList :: [slots.method, slots.intent, slots.request, slots.expires, slots.digest,
      slots.data].map String.toList = slots'.realm.toList :: [slots'.method, slots'.intent, slots'.request,
        slots'.expires, slots'.digest, slots'.data].map String.toList := by
    rcases hrealm with heq | hpipe
    · -- the same realm on both sides: the texts agree behind it
      have hcons : ∀ (realm s : String) (l : List String), ['|'].intercalate (realm.toList :: (s :: l).map String.toList) =
          realm.toList ++ ['|'] ++ ['|'].intercalate ((s :: l).map String.toList) := fun _ _ _ =>
        List.intercalate_cons_of_ne_nil (List.cons_ne_nil _ _)
      have htail := (hcons _ _ _).symm.trans (hlist.trans (hcons _ _ _))
      rw [heq] at htail ⊢
      exact congrArg (slots'.realm.toList :: ·) (intercalate_inj rfl hparts (List.append_cancel_left htail))
    · exact intercalate_inj rfl (List.forall_mem_cons.mpr ⟨hpipe, hparts⟩) hlist
  cases slots
  cases slots'
  simp only [List.map_cons, List.cons.injEq, String.toList_inj] at key
  obtain ⟨rfl, rfl, rfl, rfl, rfl, rfl, rfl, -⟩ := key
  rfl

/-! ### Binding -/

lemma mem_of_tierForAmount {offer : Offer} {amount : Option Value} {limit : ℕ}
    (h : tierForAmount offer amount = some limit) :
    ∃ price, (limit, price) ∈ offer.tiers.entries ∧ text amount = some price := by
  obtain ⟨⟨l, price⟩, ht, rfl⟩ := Option.map_eq_some_iff.mp h
  have hprice := List.find?_some ht
  exact ⟨price, List.mem_of_find?_eq_some ht, of_decide_eq_true hprice⟩

lemma sameAddress_trans {a b c : Option Value} (hab : sameAddress a b = true) (hbc : sameAddress b c = true) :
    sameAddress a c = true := by
  obtain ⟨s, t, rfl, rfl, hs, -, hst⟩ := sameAddress_iff.mp hab
  obtain ⟨t', u, ht', rfl, -, hu, htu⟩ := sameAddress_iff.mp hbc
  obtain rfl := Json.str.inj (Option.some.inj ht')
  exact sameAddress_iff.mpr ⟨s, u, rfl, rfl, hs, hu, hst.trans htu⟩

/-- **Binding of a credential.** If the codes of the secret do not collide and none is forged, an accepted credential
echoes the seven slots of one issued challenge, as far as that one's realm is the offer's or has no `|`; and it pays
exactly the price of a tier that is sold to the recipient of the offer, under the nonce of that challenge. -/
theorem credential_binding {R : Platform} (sha256 : List UInt8 → List UInt8) {secret : String} {offer : Offer}
    {header bodyDigest : Option String} {nowMs : ℤ} {r : MppPayment} {issued : Set MppChallenge}
    (hcollide : Function.Injective (R.hmac secret)) (hforged : Unforged R secret issued r.challenge)
    (hissued : ∀ c ∈ issued, FromServer R sha256 secret c)
    (hrealm : ∀ c ∈ issued, c.slots.realm = offer.realm ∨ '|' ∉ c.slots.realm.toList)
    (hok : parseMppCredential R header secret offer bodyDigest nowMs = .ok r) :
    ∃ c ∈ issued, echoedSlots r.challenge = some c.slots ∧ text (field r.challenge "id") = some c.id ∧
      (c.slots.digest ≠ "" → bodyDigest = some c.slots.digest) ∧
      (∃ price, (r.limit, price) ∈ offer.tiers.entries ∧ text (field r.authorization "value") = some price) ∧
      sameAddress (field r.authorization "to") (some (.str offer.payTo)) = true ∧
      (text (field r.authorization "nonce")).map lower = some (mppNonce R c.id c.slots.realm) := by
  obtain ⟨slots, hacc⟩ := accepted_of_ok hok
  obtain ⟨c, hc, hid⟩ := hforged slots hacc.id
  obtain ⟨offer', limit, digest, ms, random, hdigest, hchallenge⟩ := hissued c hc
  have his := issued_of_mppChallenge hchallenge
  have hpipe : '|' ∉ digest.toList := by
    rcases hdigest with rfl | ⟨bodyBytes, rfl⟩
    · simp
    · exact pipe_notMem_contentDigest sha256 bodyBytes
  have hinput : slots.input = c.slots.input := by
    have hbytes : Utf8.encode slots.input = Utf8.encode c.slots.input := hcollide (hid.symm.trans his.id)
    rw [← Utf8.decode_encode slots.input, hbytes, Utf8.decode_encode]
  have hsame : slots.realm = c.slots.realm ∨ '|' ∉ c.slots.realm.toList :=
    (hrealm c hc).imp_left fun h => hacc.realm.trans h.symm
  obtain rfl := Slots.input_inj (his.apart hpipe) hsame hinput
  obtain ⟨price, hsold, hamount⟩ := mem_of_tierForAmount hacc.limit
  refine ⟨c, hc, hacc.echoed, ?_, hacc.digest, ⟨price, hsold, hacc.value.trans hamount⟩,
    sameAddress_trans hacc.payee hacc.recipient, ?_⟩
  · rw [hacc.id, hid]
  · rw [hacc.nonce, hacc.id, Option.map_some, hid]

/-! ### Two realms -/

/-- A platform whose code of one input is `id`, and of any other tells the input. -/
noncomputable def taggedPlatform (input : List UInt8) (id nonce : String) (hid : id ≠ "")
    (hnonce : isHexString 64 nonce = true ∧ lower nonce = nonce) : Platform :=
  { leafPlatform id nonce hid hnonce with
    hmac := fun _ bytes => if bytes = input then id else String.ofList ('!' :: Base64.encode true bytes)
    hmac_ne := by
      intro _ bytes
      split
      · exact hid
      · intro h
        have hlist := congrArg String.toList h
        rw [String.toList_ofList] at hlist
        cases hlist }

section Tagged

variable {input : List UInt8} {id nonce : String} {hid : id ≠ ""}
  {hnonce : isHexString 64 nonce = true ∧ lower nonce = nonce}

lemma hmac_tagged_injective (hmark : id.toList.head? ≠ some '!') (secret : String) :
    Function.Injective ((taggedPlatform input id nonce hid hnonce).hmac secret) := by
  have hne : ∀ bytes, id ≠ String.ofList ('!' :: Base64.encode true bytes) := by
    rintro bytes h
    rw [h, String.toList_ofList] at hmark
    exact hmark rfl
  intro bytes bytes' h
  change (if bytes = input then id else String.ofList ('!' :: Base64.encode true bytes)) =
    if bytes' = input then id else String.ofList ('!' :: Base64.encode true bytes') at h
  split at h <;> split at h
  · next hb hb' => exact hb.trans hb'.symm
  · exact absurd h (hne bytes')
  · exact absurd h.symm (hne bytes)
  · have hlist := List.tail_eq_of_cons_eq (String.ofList_injective h)
    rw [← Base64.decode_encode true bytes, hlist, Base64.decode_encode]

lemma mppChallengeId_tagged {slots : Slots} (hinput : Utf8.encode slots.input = input) (secret : String) :
    mppChallengeId (taggedPlatform input id nonce hid hnonce) secret slots = id := if_pos hinput

lemma unforged_echo (R : Platform) (secret : String) {c c' : MppChallenge} (h : c'.id = c.id) :
    Unforged R secret {c} (some (mppEcho c')) := by
  intro slots hslots
  have hecho : text (field (some (mppEcho c')) "id") = some c'.id := text_eq_some.mpr (echo_field c' "id" c'.id (by simp))
  exact ⟨c, rfl, h ▸ Option.some.inj (hecho.symm.trans hslots)⟩

end Tagged

/-- The credential for a leaf is accepted in time. -/
lemma leaf_accepted {R : Platform} {c : MppChallenge} (hgenuine : Genuine R (leafOffer "400000") 32 "s3cret" "" c)
    (hexpires : R.dateParse c.slots.expires = some 1786925400000)
    (hlen : (mppCredential c (mppPayload (leafOffer "400000") "400000" (mppNonce R c.id c.slots.realm) leafBuyer)
      none).toList.length ≤ 16 * 1024) :
    ∃ r, parseMppCredential R
        (some (mppHeader c (mppPayload (leafOffer "400000") "400000" (mppNonce R c.id c.slots.realm) leafBuyer) none))
        "s3cret" (leafOffer "400000") none 1786924800000 = .ok r ∧ r.challenge = some (mppEcho c) := by
  have hsold : (32, "400000") ∈ (leafOffer "400000").tiers.entries := by decide
  have hbody : "" ≠ "" → (none : Option String) = some "" := fun h => absurd rfl h
  have hnow : (1786924800000 : ℤ) < 1786925400000 := by decide
  have hrequest : c.slots.request.toList.length ≤ 16 * 1024 := by
    rw [hgenuine.request_eq hsold]
    exact leaf_request_short
  exact ⟨_, (parseMppCredential_honest hgenuine hsold hbody hexpires hnow none rfl _).mpr
    ⟨hlen, hrequest, by decide, 32, by decide, rfl⟩, rfl⟩

lemma boundId_ne : "0RQnutnvoju6mkJnY2oWXMiS1mlgsCKEtr-msCr_KXg" ≠ "" := by decide

lemma boundNonce_lower :
    isHexString 64 "0xf512a4867f8d7a71efc8a5fa87c9aefe07959b499d8f7c3ea9bb10efa8b960bf" = true ∧
      lower "0xf512a4867f8d7a71efc8a5fa87c9aefe07959b499d8f7c3ea9bb10efa8b960bf" =
        "0xf512a4867f8d7a71efc8a5fa87c9aefe07959b499d8f7c3ea9bb10efa8b960bf" := by
  decide

/-- The platform at the challenge for a leaf. -/
noncomputable def boundPlatform : Platform :=
  taggedPlatform (Utf8.encode (midnightSlots (leafOffer "400000") "400000").input)
    "0RQnutnvoju6mkJnY2oWXMiS1mlgsCKEtr-msCr_KXg" "0xf512a4867f8d7a71efc8a5fa87c9aefe07959b499d8f7c3ea9bb10efa8b960bf"
    boundId_ne boundNonce_lower

/-- The credential that answers the challenge for a leaf is bound to it. -/
theorem credential_binding_leaf :
    ∃ r, parseMppCredential boundPlatform
        (some (leafHeader "0RQnutnvoju6mkJnY2oWXMiS1mlgsCKEtr-msCr_KXg"
          "0xf512a4867f8d7a71efc8a5fa87c9aefe07959b499d8f7c3ea9bb10efa8b960bf" "400000")) "s3cret" (leafOffer "400000")
        none 1786924800000 = .ok r ∧
      ∃ c ∈ ({leafChallenge "0RQnutnvoju6mkJnY2oWXMiS1mlgsCKEtr-msCr_KXg" "400000"} : Set MppChallenge),
        echoedSlots r.challenge = some c.slots ∧ text (field r.challenge "id") = some c.id ∧
        (c.slots.digest ≠ "" → none = some c.slots.digest) ∧
        (∃ price, (r.limit, price) ∈ (leafOffer "400000").tiers.entries ∧
          text (field r.authorization "value") = some price) ∧
        sameAddress (field r.authorization "to") (some (.str (leafOffer "400000").payTo)) = true ∧
        (text (field r.authorization "nonce")).map lower = some (mppNonce boundPlatform c.id c.slots.realm) := by
  have hsold : (32, "400000") ∈ (leafOffer "400000").tiers.entries := by decide
  have hchallenge : mppChallenge boundPlatform (leafOffer "400000") 32 "s3cret" "" 1786924800000
      "00112233445566778899aabb" = some (leafChallenge "0RQnutnvoju6mkJnY2oWXMiS1mlgsCKEtr-msCr_KXg" "400000") := by
    refine (mppChallenge_midnight boundPlatform rfl hsold "s3cret").trans ?_
    unfold boundPlatform
    rw [mppChallengeId_tagged rfl]
    rfl
  obtain ⟨r, hok, hecho⟩ := leaf_accepted (issued_of_mppChallenge hchallenge).toGenuine rfl
    (leaf_credential_length _ _ (by decide) (by decide))
  refine ⟨r, hok, credential_binding (fun _ => []) (hmac_tagged_injective (by decide) "s3cret")
    (hecho ▸ unforged_echo boundPlatform "s3cret" rfl) ?_ ?_ hok⟩
  · rintro c rfl
    exact ⟨_, _, _, _, _, .inl rfl, hchallenge⟩
  · rintro c rfl
    exact .inl rfl

/-- A realm that ends in the slots of another challenge. -/
def strayRealm (request : String) : String := "bootnode.onion|evm|charge|" ++ request ++ "|2026-08-17T00:10:00Z|"

/-- What an echo has for the last slot if the realm is cut short. -/
def strayData (request data : String) : String := "evm|charge|" ++ request ++ "|2026-08-17T00:10:00Z||" ++ data

lemma strayRealm_ne (request : String) : strayRealm request ≠ "" := by
  have hlist : (strayRealm request).toList =
      ("bootnode.onion|evm|charge|" ++ request).toList ++ "|2026-08-17T00:10:00Z|".toList := String.toList_append
  intro h
  rw [h] at hlist
  exact List.append_ne_nil_of_right_ne_nil _ (by decide) hlist.symm

lemma input_stray (request data : String) :
    Slots.input ⟨"bootnode.onion", "evm", "charge", request, "2026-08-17T00:10:00Z", "", strayData request data⟩ =
      Slots.input ⟨strayRealm request, "evm", "charge", request, "2026-08-17T00:10:00Z", "", data⟩ := by
  have hrealm : "bootnode.onion|evm|charge|".toList =
      "bootnode.onion".toList ++ '|' :: ("evm".toList ++ '|' :: ("charge".toList ++ ['|'])) := by decide
  have hdata : "evm|charge|".toList = "evm".toList ++ '|' :: ("charge".toList ++ ['|']) := by decide
  have hdate : "|2026-08-17T00:10:00Z|".toList = '|' :: ("2026-08-17T00:10:00Z".toList ++ ['|']) := by decide
  have hdate' : "|2026-08-17T00:10:00Z||".toList = '|' :: ("2026-08-17T00:10:00Z".toList ++ ['|', '|']) := by
    decide
  have hempty : "".toList = [] := rfl
  unfold Slots.input strayData strayRealm
  refine congrArg String.ofList ?_
  simp only [List.map_cons, List.map_nil, List.intercalate_cons_cons, List.intercalate_singleton, String.toList_append,
    hrealm, hdata, hdate, hdate', hempty, List.append_assoc, List.cons_append, List.nil_append]

/-- The offer under another realm. -/
def Offer.withRealm (offer : Offer) (realm : String) (h : realm ≠ "") : Offer :=
  { offer with
    realm := realm
    realm_ne := h }

lemma midnightSlots_withRealm (offer : Offer) (realm : String) (h : realm ≠ "") (price : String) :
    midnightSlots (offer.withRealm realm h) price = { midnightSlots offer price with realm := realm } := rfl

/-- The request for a leaf as a challenge has it. -/
def leafRequest : String := b64url (String.ofList (requestOf (leafOffer "400000") 32 "400000").stringify)

/-- What is echoed of a challenge for a leaf that was issued under the other realm. -/
def strayEcho : MppChallenge where
  id := "mgEuD4x5Qdi_pkH8yomU6CFZEHfdZ_YQSuHdZ8PFKtM"
  slots := { midnightSlots (leafOffer "400000") "400000" with
    data := strayData leafRequest (midnightSlots (leafOffer "400000") "400000").data }
  description := "leaf (tier 32)"

lemma input_strayEcho : strayEcho.slots.input =
    (midnightSlots ((leafOffer "400000").withRealm (strayRealm leafRequest) (strayRealm_ne leafRequest)) "400000").input := by
  rw [midnightSlots_withRealm]
  exact input_stray leafRequest _

/-- The platform at the text that both lists of slots have. -/
noncomputable def strayPlatform : Platform :=
  taggedPlatform (Utf8.encode strayEcho.slots.input) "mgEuD4x5Qdi_pkH8yomU6CFZEHfdZ_YQSuHdZ8PFKtM"
    "0xae9ede0aff2f1e8777ae63ebe0d2652f59f449eda60deebd86e29ef1cb374d14" (by decide) (by decide)

lemma stray_length : (mppCredential strayEcho (mppPayload (leafOffer "400000") "400000"
    "0xae9ede0aff2f1e8777ae63ebe0d2652f59f449eda60deebd86e29ef1cb374d14" leafBuyer) none).toList.length ≤ 16 * 1024 := by
  have hwords : ∀ k ∈ ["bootnode.onion", "evm", "charge", "leaf (tier 32)", "2026-08-17T00:10:00Z", "400000",
      "evm|charge|", "|2026-08-17T00:10:00Z||"], (Json.quote k).length ≤ 30 := by decide
  have hword : ∀ s ∈ [strayEcho.slots.realm, strayEcho.slots.method, strayEcho.slots.intent, strayEcho.description,
      strayEcho.slots.expires, "400000", "evm|charge|", "|2026-08-17T00:10:00Z||"], (Json.quote s).length ≤ 30 := hwords
  simp only [List.forall_mem_cons] at hword
  have hid : (Json.quote strayEcho.id).length ≤ 60 := by decide
  have hnonce : (Json.quote "0xae9ede0aff2f1e8777ae63ebe0d2652f59f449eda60deebd86e29ef1cb374d14").length ≤ 70 := by
    decide
  have hbytes := leaf_request_length
  have hrequest : (Json.quote leafRequest).length ≤ _ := length_quote_b64url _
  have hlast := leaf_data_length
  have hfront := length_quote_append ("evm|charge|" ++ leafRequest) "|2026-08-17T00:10:00Z||"
  have hfront' := length_quote_append "evm|charge|" leafRequest
  have hdata := length_quote_append ("evm|charge|" ++ leafRequest ++ "|2026-08-17T00:10:00Z||")
    (b64url "\x7b\"limit\":\"32\",\"nonce\":\"00112233445566778899aabb\"\x7d")
  have htext := leaf_credential_le strayEcho "400000"
    "0xae9ede0aff2f1e8777ae63ebe0d2652f59f449eda60deebd86e29ef1cb374d14" rfl
  have hslots : strayEcho.slots.request = leafRequest ∧ strayEcho.slots.data = "evm|charge|" ++ leafRequest ++
      "|2026-08-17T00:10:00Z||" ++ b64url "\x7b\"limit\":\"32\",\"nonce\":\"00112233445566778899aabb\"\x7d" :=
    ⟨rfl, rfl⟩
  rw [hslots.1, hslots.2] at htext
  exact credential_length (by omega)

/-- A challenge that was issued under a realm with `|` in it: its code, without collisions and forgeries, verifies for
the slots of a leaf's challenge, and no challenge that the server issues has the slots that are echoed. -/
theorem ambiguous_realm_accepted :
    Function.Injective (strayPlatform.hmac "s3cret") ∧
    ∃ c, mppChallenge strayPlatform ((leafOffer "400000").withRealm (strayRealm leafRequest) (strayRealm_ne leafRequest))
        32 "s3cret" "" 1786924800000 "00112233445566778899aabb" = some c ∧
      ∃ r, parseMppCredential strayPlatform (some (mppHeader strayEcho (mppPayload (leafOffer "400000") "400000"
          "0xae9ede0aff2f1e8777ae63ebe0d2652f59f449eda60deebd86e29ef1cb374d14" leafBuyer) none)) "s3cret"
          (leafOffer "400000") none 1786924800000 = .ok r ∧
        Unforged strayPlatform "s3cret" {c} r.challenge ∧
        ∀ sha256 c', FromServer strayPlatform sha256 "s3cret" c' → echoedSlots r.challenge ≠ some c'.slots := by
  have hsold : (32, "400000") ∈ (leafOffer "400000").tiers.entries := by decide
  have htimeout : ((leafOffer "400000").withRealm (strayRealm leafRequest)
      (strayRealm_ne leafRequest)).maxTimeoutSeconds = 600 := rfl
  have hchallenge := mppChallenge_midnight strayPlatform htimeout hsold "s3cret"
  have hid : mppChallengeId strayPlatform "s3cret" (midnightSlots ((leafOffer "400000").withRealm
      (strayRealm leafRequest) (strayRealm_ne leafRequest)) "400000") = strayEcho.id :=
    mppChallengeId_tagged (congrArg Utf8.encode input_strayEcho.symm) "s3cret"
  have hgenuine : Genuine strayPlatform (leafOffer "400000") 32 "s3cret" "" strayEcho :=
    ⟨(mppChallengeId_tagged rfl "s3cret").symm, rfl, rfl, rfl, rfl, ⟨_, jcs_mppRequest hsold, rfl⟩, by decide⟩
  obtain ⟨r, hok, hecho⟩ := leaf_accepted hgenuine rfl stray_length
  refine ⟨hmac_tagged_injective (by decide) "s3cret", _, hchallenge, r, hok, ?_, ?_⟩
  · rw [hecho]
    refine unforged_echo strayPlatform "s3cret" ?_
    dsimp only
    rw [hid]
  · rintro sha256 c' ⟨offer, limit, digest, ms, random, -, hc'⟩ heq
    rw [hecho, echoedSlots_mppEcho] at heq
    obtain ⟨data, hdata⟩ := (issued_of_mppChallenge hc').data
    have hslot : strayData leafRequest (midnightSlots (leafOffer "400000") "400000").data = b64url data :=
      (congrArg Slots.data (Option.some.inj heq)).trans hdata
    have hpipe := pipe_notMem_b64url data
    rw [← hslot, strayData, String.toList_append, List.mem_append, String.toList_append, List.mem_append] at hpipe
    exact hpipe (.inl (.inr (by decide)))

end ShadeTree.Payments
