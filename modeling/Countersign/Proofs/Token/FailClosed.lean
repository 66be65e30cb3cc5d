import Countersign.Proofs.Binding.Faults
import Countersign.Proofs.Token.Calls
import Countersign.Proofs.Token.ReadBack

/-!
# A registry over a store that fails

Whatever the calls of its store do, a registry accepts no token that it did not
find bound, gives out none that it did not bind, and once it has said that a token
is revoked the token stays so. A call that fails without a word about its effect
does not harm: at worst something is bound that nobody was given, or a token is
revoked of which that was not said.
-/

set_option autoImplicit false

namespace Countersign.Registry

open BindingStore

/-! ## What is bound and what is not -/

def Served.Puts (e : Served) (id subject : String) : Prop :=
  ∃ ttl answer, Call.put id subject ttl answer ∈ e.calls

open Unreliable (Binds)

variable {σ : Type} [BindingStore σ] [Unreliable σ] (m : Mint)

/-- What is bound behind a request was bound before, or is the token that the request made. -/
theorem binds_step (s : σ) (r : Request) (id subject : String)
    (h : Binds (left m s r) id subject) : Binds s id subject ∨
      (∃ t, r.minted? m = some t ∧ t.id = id) ∧ (served m s r).Puts id subject := by
  cases request_serves m s r with
  | unsigned o e ho hissue hanswer hcalls hleft => exact Or.inl (hleft ▸ h)
  | bound o t ho hissue hanswer hcalls hleft =>
    rw [hleft] at h
    rcases Unreliable.put_binds s _ _ _ id subject h with h | ⟨rfl, rfl⟩
    · exact Or.inl h
    · refine Or.inr ⟨⟨t, minted_of_order m r o t ho hissue, rfl⟩, ?_⟩
      exact ⟨_, _, hcalls ▸ List.mem_singleton.mpr rfl⟩
  | unread kind value e hop hparse hanswer hcalls hleft => exact Or.inl (hleft ▸ h)
  | asked kind value t hop hparse hanswer hcalls hleft =>
    exact Or.inl (Unreliable.get_binds s t.id id subject (hleft ▸ h))
  | flawed kind value flaw hop hdecode hanswer hcalls hleft => exact Or.inl (hleft ▸ h)
  | unbound kind value t hop hdecode hanswer hcalls hleft =>
    exact Or.inl (Unreliable.remove_binds s t.id id subject (hleft ▸ h))
  | unboundAll x hop hanswer hcalls hleft =>
    exact Or.inl (Unreliable.remove_subject_binds s x id subject (hleft ▸ h))

theorem behind_puts (s : σ) (requests : List Request) (id subject : String)
    (h : Binds (behind m s requests) id subject) :
    Binds s id subject ∨ ∃ e ∈ course m s requests, e.Puts id subject := by
  induction requests generalizing s with
  | nil => exact Or.inl h
  | cons r rest ih =>
    rcases ih _ h with hleft | ⟨e, he, hputs⟩
    · rcases binds_step m s r id subject hleft with hs | ⟨_, hputs⟩
      · exact Or.inl hs
      · exact Or.inr ⟨_, List.mem_cons_self, hputs⟩
    · exact Or.inr ⟨e, List.mem_cons_of_mem _ he, hputs⟩

theorem behind_unbound (s : σ) (requests : List Request) (id subject : String)
    (hunbound : ¬ Binds s id subject)
    (hids : ∀ r ∈ requests, ∀ t, r.minted? m = some t → t.id ≠ id) :
    ¬ Binds (behind m s requests) id subject := by
  induction requests generalizing s with
  | nil => exact hunbound
  | cons r rest ih =>
    apply ih
    · intro hleft
      rcases binds_step m s r id subject hleft with hs | ⟨⟨t, ht, hid⟩, _⟩
      · exact hunbound hs
      · exact hids r List.mem_cons_self t ht hid
    · exact fun r' hr' => hids r' (List.mem_cons_of_mem _ hr')

theorem validate_served (s : σ) (r : Request) (kind : TokenKind) (value : String) (t : Token)
    (hop : r.op = .validate kind value) (h : (served m s r).answer = .token (.ok t)) :
    m.parse r.now kind value = .ok t ∧
      (served m s r).calls = [.get t.id (.ok (some t.subject))] ∧ Binds s t.id t.subject := by
  cases request_serves m s r with
  | asked kind' value' u hop' hparse hanswer hcalls hleft =>
    rw [hop] at hop'
    cases hop'
    rw [hanswer, Answer.token.injEq, accepted_iff] at h
    obtain ⟨hget, rfl⟩ := h
    rw [hget] at hcalls
    exact ⟨hparse, hcalls, Unreliable.get_bound s t.id t.subject hget⟩
  | bound o u ho =>
    rw [hop] at ho
    cases ho
  | unbound kind' value' u hop' =>
    rw [hop] at hop'
    cases hop'
  | unsigned o e ho hissue hanswer | unread kind' value' e hop' hparse hanswer
  | flawed kind' value' flaw hop' hdecode hanswer | unboundAll x hop' hanswer =>
    rw [hanswer] at h
    cases h

theorem revoke_served (s : σ) (r : Request) (kind : TokenKind) (value : String) (t : Token)
    (hop : r.op = .revoke kind value) (h : (served m s r).answer = .token (.ok t)) :
    m.decode kind value = .ok t ∧ ∀ subject, ¬ Binds (left m s r) t.id subject := by
  cases request_serves m s r with
  | unbound kind' value' u hop' hdecode hanswer hcalls hleft =>
    rw [hop] at hop'
    cases hop'
    rw [hanswer, Answer.token.injEq, given_iff] at h
    obtain ⟨⟨⟨⟩, hremove⟩, rfl⟩ := h
    refine ⟨hdecode, fun subject => ?_⟩
    rw [hleft]
    exact Unreliable.remove_unbinds s t.id subject hremove
  | bound o u ho =>
    rw [hop] at ho
    cases ho
  | asked kind' value' u hop' =>
    rw [hop] at hop'
    cases hop'
  | unsigned o e ho hissue hanswer | unread kind' value' e hop' hparse hanswer
  | flawed kind' value' flaw hop' hdecode hanswer | unboundAll x hop' hanswer =>
    rw [hanswer] at h
    cases h

theorem revoke_all_served (s : σ) (r : Request) (subject : String) (n : Nat)
    (hop : r.op = .revokeAll subject) (h : (served m s r).answer = .count (.ok n)) (id : String) :
    ¬ Binds (left m s r) id subject := by
  cases request_serves m s r with
  | unboundAll x hop' hanswer hcalls hleft =>
    rw [hop] at hop'
    cases hop'
    rw [hleft]
    cases hremove : (removeSubject s subject).1 with
    | error e =>
      rw [hanswer, hremove] at h
      cases h
    | ok k => exact Unreliable.remove_subject_unbinds s subject k id hremove
  | unsigned o e ho hissue hanswer | bound o u ho hissue hanswer
  | unread kind' value' e hop' hparse hanswer | asked kind' value' u hop' hparse hanswer
  | flawed kind' value' flaw hop' hdecode hanswer | unbound kind' value' u hop' hdecode hanswer =>
    rw [hanswer] at h
    cases h

theorem unbound_refused (s : σ) (requests : List Request) (id subject : String)
    (hunbound : ¬ Binds s id subject)
    (hids : ∀ r ∈ requests, ∀ t, r.minted? m = some t → t.id ≠ id) :
    ∀ e ∈ course m s requests, ∀ kind value t, e.op = .validate kind value →
      e.answer = .token (.ok t) → t.id = id → t.subject ≠ subject := by
  induction requests generalizing s with
  | nil => simp [course]
  | cons r rest ih =>
    intro e he kind value t hop hanswer hid hsubject
    rcases List.mem_cons.mp he with rfl | he
    · have hbinds := (validate_served m s r kind value t hop hanswer).2.2
      rw [hid, hsubject] at hbinds
      exact hunbound hbinds
    · have hleft : ¬ Binds (left m s r) id subject :=
        behind_unbound m s [r] id subject hunbound fun r' hr' =>
          hids r' (List.mem_singleton.mp hr' ▸ List.mem_cons_self)
      exact ih _ hleft (fun r' hr' => hids r' (List.mem_cons_of_mem _ hr')) e he kind value t hop
        hanswer hid hsubject

theorem parse_decode (now : Millis) (kind : TokenKind) (value : String) (t : Token)
    (h : m.parse now kind value = .ok t) : m.decode kind value = .ok t := by
  rw [Mint.parse] at h
  split at h
  · cases h
  · next u hdecode =>
    split at h
    · cases h
    · rw [hdecode, Except.ok.inj h]

theorem decode_minted (r : Request) (t u : Token) (ht : r.minted? m = some t) (kind : TokenKind)
    (h : m.decode kind t.value = .ok u) : u.id = t.id ∧ u.subject = t.subject := by
  obtain ⟨o, hissue⟩ := minted_issue m r t ht
  rw [m.decode_issued _ _ _ _ _ t u kind hissue h]
  exact ⟨rfl, rfl⟩

theorem validated_decode (s : σ) (requests : List Request) (e : Served)
    (he : e ∈ course m s requests) (kind : TokenKind) (value : String) (t : Token)
    (hop : e.op = .validate kind value) (hanswer : e.answer = .token (.ok t)) :
    m.decode kind value = .ok t := by
  obtain ⟨r, _, s', rfl⟩ := course_served m s requests e he
  exact parse_decode m r.now kind value t (validate_served m s' r kind value t hop hanswer).1

theorem revokes_cases (e : Event) (t : Token) (h : e.revokes t = true) :
    (∃ kind u, e.op = .revoke kind t.value ∧ e.answer = .token (.ok u)) ∨
      ∃ n, e.op = .revokeAll t.subject ∧ e.answer = .count (.ok n) := by
  unfold Event.revokes at h
  split at h
  · next kind value u hop hanswer => exact Or.inl ⟨kind, u, by rw [hop, eq_of_beq h], hanswer⟩
  · next subject n hop hanswer => exact Or.inr ⟨n, by rw [hop, eq_of_beq h], hanswer⟩
  · cases h

theorem revokes_served (s : σ) (r : Request) (t : Token)
    (hown : ∀ kind u, m.decode kind t.value = .ok u → u.id = t.id)
    (h : (served m s r).revokes t = true) : ¬ Binds (left m s r) t.id t.subject := by
  rcases revokes_cases _ t h with ⟨kind, u, hop, hanswer⟩ | ⟨n, hop, hanswer⟩
  · obtain ⟨hdecode, hunbound⟩ := revoke_served m s r kind t.value u hop hanswer
    rw [← hown kind u hdecode]
    exact hunbound t.subject
  · exact revoke_all_served m s r t.subject n hop hanswer t.id

theorem later_ids (earlier later : List Request) (r minted : Request) (t : Token)
    (hids : (((earlier ++ r :: later).filterMap (Request.minted? m)).map Token.id).Nodup)
    (hminted : minted ∈ earlier) (ht : minted.minted? m = some t) :
    ∀ r' ∈ later, ∀ u, r'.minted? m = some u → u.id ≠ t.id := by
  rw [List.filterMap_append, List.map_append, List.nodup_append] at hids
  intro r' hr' u hu hid
  have hfirst : t.id ∈ (earlier.filterMap (Request.minted? m)).map Token.id :=
    List.mem_map_of_mem (List.mem_filterMap.mpr ⟨minted, hminted, ht⟩)
  have hsecond : u.id ∈ ((r :: later).filterMap (Request.minted? m)).map Token.id :=
    List.mem_map_of_mem (List.mem_filterMap.mpr ⟨r', List.mem_cons_of_mem _ hr', hu⟩)
  exact hids.2.2 t.id hfirst u.id hsecond hid.symm

theorem decode_same (kind other : TokenKind) (value : String) (t u : Token)
    (ht : m.decode kind value = .ok t) (hu : m.decode other value = .ok u) : u = t := by
  obtain ⟨c, hc, rfl⟩ := m.decode_value kind value t ht
  obtain ⟨d, hd, rfl⟩ := m.decode_value other value u hu
  rw [hc] at hd
  cases hd
  rfl

/-- A token that was said to be revoked is not accepted again, as long as no token of its id is made. -/
theorem revoked_refused (s : σ) (r : Request) (later : List Request) (t : Token)
    (hown : ∀ kind u, m.decode kind t.value = .ok u → u.id = t.id ∧ u.subject = t.subject)
    (hrevokes : (served m s r).revokes t = true)
    (hids : ∀ r' ∈ later, ∀ u, r'.minted? m = some u → u.id ≠ t.id) :
    ∀ g ∈ course m (left m s r) later, ∀ kind u, g.op = .validate kind t.value →
      g.answer ≠ .token (.ok u) := by
  intro g hg kind u hop hanswer
  have hunbound := revokes_served m s r t (fun kind u hu => (hown kind u hu).1) hrevokes
  have hdecode := validated_decode m _ later g hg kind t.value u hop hanswer
  obtain ⟨hid, hsubject⟩ := hown kind u hdecode
  exact unbound_refused m _ later t.id t.subject hunbound hids g hg kind t.value u hop hanswer hid
    hsubject

/-- Whatever calls of the store fail, and whether they have their effect: a token is accepted only if
the store was asked and named its subject, and that binding was put at some time; a token is given out
only if the store said that it was bound; a token that was said to be revoked, by its value or with all
of its subject, is never accepted again, nor is one from elsewhere as long as no token of its id is
made; and a text that is no token of its kind is refused without a call. -/
theorem fail_closed (s : σ) (requests : List Request)
    (hids : ((requests.filterMap (Request.minted? m)).map Token.id).Nodup)
    (before after : List Served) (e : Served) (hcourse : course m s requests = before ++ e :: after) :
    (∀ kind value t, e.op = .validate kind value → e.answer = .token (.ok t) →
      e.calls = [.get t.id (.ok (some t.subject))] ∧
        (Binds s t.id t.subject ∨ ∃ f ∈ before, f.Puts t.id t.subject)) ∧
    (∀ o t, e.op.order? m.policy = some o → e.answer = .token (.ok t) →
      e.calls = [.put t.id t.subject (remaining e.now t.expireTime) (.ok ())]) ∧
    (∀ f ∈ before, ∀ t, f.minted? m = some t → e.revokes t = true →
      ∀ g ∈ after, ∀ kind u, g.op = .validate kind t.value → g.answer ≠ .token (.ok u)) ∧
    (∀ kind value t, m.decode kind value = .ok t → e.revokes t = true →
      (∀ g ∈ after, ∀ u, g.minted? m = some u → u.id ≠ t.id) →
      ∀ g ∈ after, ∀ other u, g.op = .validate other value → g.answer ≠ .token (.ok u)) ∧
    (∀ kind value flaw, e.op = .revoke kind value → m.decode kind value = .error flaw →
      (∃ failure, e.answer = .token (.error failure) ∧
        failure.error = .invalidToken flaw.message) ∧ e.calls = []) := by
  obtain ⟨earlier, r, later, rfl, rfl, rfl, rfl⟩ := course_split m s requests before after e hcourse
  refine ⟨?_, ?_, ?_, ?_, ?_⟩
  · intro kind value t hop hanswer
    obtain ⟨_, hcalls, hbinds⟩ := validate_served m _ r kind value t hop hanswer
    exact ⟨hcalls, behind_puts m s earlier t.id t.subject hbinds⟩
  · intro o t ho hanswer
    exact issue_served m (behind m s earlier) r o t ho hanswer
  · intro f hf t ht hrevokes g hg kind u hop
    obtain ⟨minted, hminted, _, rfl⟩ := course_served m s earlier f hf
    have hids' := later_ids m earlier later r minted t hids hminted ht
    exact revoked_refused m _ r later t (fun kind u => decode_minted m minted t u ht kind) hrevokes
      hids' g hg kind u hop
  · intro kind value t ht hrevokes hids' g hg other u hop
    have hvalue : t.value = value := by
      obtain ⟨c, _, rfl⟩ := m.decode_value kind value t ht
      rfl
    have hown : ∀ other u, m.decode other t.value = .ok u → u.id = t.id ∧ u.subject = t.subject := by
      intro other u hu
      rw [decode_same m kind other value t u ht (hvalue ▸ hu)]
      exact ⟨rfl, rfl⟩
    have hlater : ∀ r' ∈ later, ∀ w, r'.minted? m = some w → w.id ≠ t.id := by
      intro r' hr'
      obtain ⟨g', hg', hrequest⟩ := course_member m (left m (behind m s earlier) r) later r' hr'
      exact hrequest ▸ hids' g' hg'
    exact revoked_refused m _ r later t hown hrevokes hlater g hg other u (hvalue ▸ hop)
  · intro kind value flaw hop hdecode
    obtain ⟨hanswer, hcalls⟩ := flawed_served m (behind m s earlier) r kind value flaw hop hdecode
    exact ⟨⟨_, hanswer, rfl⟩, hcalls⟩

section

variable {σ : Type} [BindingStore σ] (m : Mint)

theorem revokes_value (e : Event) (kind : TokenKind) (t u : Token) (hop : e.op = .revoke kind t.value)
    (hanswer : e.answer = .token (.ok u)) : e.revokes t = true := by
  simp [Event.revokes, hop, hanswer]

theorem decode_refresh (hkeys : m.keys.Matching) (now : Millis) (hnow : 0 ≤ now.toInt) (seed : Nonce)
    (userId : String) (ttl : Option Duration) (t : Token)
    (hissue : m.issueRefresh now seed userId ttl = .ok t) : m.decode .refresh t.value = .ok t := by
  have htoken := m.issue_token _ _ _ _ _ _ hissue
  have hkind : TokenKind.refresh = t.kind := by
    rw [htoken]
    rfl
  have hgenuine := m.genuine_matching hkeys now hnow seed userId none _ t hissue
    (Claims.readable_none _ rfl) (Nat.zero_le _)
  have hdecode := m.decode_genuine t.value _ hgenuine .refresh
  rw [← htoken, if_pos hkind] at hdecode
  exact hdecode

theorem unheard_issue (now : Millis) (seed : Nonce) (userId : String) (ttl : Option Duration)
    (t : Token) (s : Faulty σ) (failure : StoreFailure) (faults : List Fault)
    (hissue : m.issueRefresh now seed userId ttl = .ok t)
    (hfaults : s.faults = .unheard failure :: faults) :
    (served m s ⟨now, 0, .issueRefresh seed userId ttl⟩).answer = .token (.error (.store failure)) ∧
      (left m s ⟨now, 0, .issueRefresh seed userId ttl⟩).faults = faults := by
  have hbind := bind_put now t s _ _ (s.call_unheard
    (fun s => put s t.id t.subject (remaining now t.expireTime)) failure faults hfaults)
  rw [served, left]
  simp only [serve, issueRefresh, hissue, hbind]
  exact ⟨rfl, trivial⟩

theorem missed_revoke (now : Millis) (kind : TokenKind) (value : String) (t : Token)
    (s : Faulty σ) (failure : StoreFailure) (faults : List Fault)
    (hdecode : m.decode kind value = .ok t) (hfaults : s.faults = .missed failure :: faults) :
    (served m s ⟨now, 0, .revoke kind value⟩).answer = .token (.error (.store failure)) ∧
      (left m s ⟨now, 0, .revoke kind value⟩).faults = faults := by
  have hremove : remove s t.id = _ := s.call_missed (fun s => remove s t.id) failure faults hfaults
  rw [served, left]
  simp only [serve, revoke_read m kind value t s hdecode, hremove]
  exact ⟨rfl, trivial⟩

theorem answered_revoke (now : Millis) (kind : TokenKind) (value : String) (t : Token)
    (s : Faulty σ) (hdecode : m.decode kind value = .ok t) (hfaults : s.faults = [])
    (hanswer : (remove s.store t.id).1 = .ok ()) :
    (served m s ⟨now, 0, .revoke kind value⟩).answer = .token (.ok t) := by
  have hremove : remove s t.id = _ := s.call_end (fun s => remove s t.id) hfaults
  rw [served]
  simp only [serve, revoke_read m kind value t s hdecode, hremove, hanswer]
  rfl

end

/-- The binding of a token is made although that is not said, and a first revocation is lost. -/
def sampleStore : Faulty MemoryBindings :=
  ⟨[.unheard (.unavailable "down"), .missed (.unavailable "down")], {}⟩

def sampleRequests (t : Token) : List Request :=
  [sampleRequest, ⟨2000, 0, .revoke .refresh t.value⟩, ⟨3000, 0, .revoke .refresh t.value⟩,
    ⟨4000, 0, .validate .refresh t.value⟩]

theorem fail_closed_unheard :
    ∃ t, sampleMint.issueRefresh 1000 sampleSeed "user" none = .ok t ∧
      ∃ bound lost revoked asked, course sampleMint sampleStore (sampleRequests t) =
          [bound, lost, revoked, asked] ∧
        bound.answer = .token (.error (.store (.unavailable "down"))) ∧
        lost.answer = .token (.error (.store (.unavailable "down"))) ∧
        revoked.answer = .token (.ok t) ∧ ∀ u, asked.answer ≠ .token (.ok u) := by
  cases hissue : sampleMint.issueRefresh 1000 sampleSeed "user" none with
  | error e =>
    have hissues := sample_issues
    rw [hissue] at hissues
    cases hissues
  | ok t =>
    have hdecode := decode_refresh sampleMint Mint.sample_matching 1000 (by decide) sampleSeed "user"
      none t hissue
    have hminted : sampleRequest.minted? sampleMint = some t :=
      minted_of_order sampleMint sampleRequest
        ⟨sampleSeed, "user", none, sampleMint.policy.refreshTtl⟩ t rfl hissue
    have hids : (((sampleRequests t).filterMap (Request.minted? sampleMint)).map Token.id).Nodup := by
      rw [sampleRequests, List.filterMap_cons_some hminted]
      exact List.nodup_singleton t.id
    have hbound := unheard_issue sampleMint 1000 sampleSeed "user" none t sampleStore _ _ hissue
      rfl
    have hlost := missed_revoke sampleMint 2000 .refresh t.value t _ _ _ hdecode hbound.2
    have hrevoked := answered_revoke sampleMint 3000 .refresh t.value t _ hdecode hlost.2 rfl
    refine ⟨t, rfl, _, _, _, _, rfl, hbound.1, hlost.1, hrevoked, ?_⟩
    intro u
    obtain ⟨_, _, hclosed, _⟩ := fail_closed sampleMint sampleStore (sampleRequests t) hids [_, _] [_] _
      rfl
    exact hclosed _ List.mem_cons_self t hminted (revokes_value _ .refresh t t rfl hrevoked) _
      List.mem_cons_self .refresh u rfl

end Countersign.Registry
