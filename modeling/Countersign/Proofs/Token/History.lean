import Countersign.Binding.Memory
import Countersign.Token.Registry
import Mathlib.Data.List.Induction

/-!
# Histories of a registry

A registry serves one request after the other, each at what its two clocks show.
A history lists the requests with their answers. It alone tells which tokens were
issued and not revoked since: these are the standing ones.
-/

set_option autoImplicit false

namespace Countersign.Registry

inductive Op where
  | issueAccess (seed : Nonce) (user : User) (ttl : Option Duration)
  | issueRefresh (seed : Nonce) (userId : String) (ttl : Option Duration)
  | validate (kind : TokenKind) (value : String)
  | revoke (kind : TokenKind) (value : String)
  | revokeAll (subject : String)

structure Order where
  seed : Nonce
  subject : String
  user : Option User
  ttl : Duration

def Op.order? (p : TokenPolicy) : Op → Option Order
  | .issueAccess seed user ttl => some ⟨seed, user.id, some user, ttl.getD p.accessTtl⟩
  | .issueRefresh seed userId ttl => some ⟨seed, userId, none, ttl.getD p.refreshTtl⟩
  | _ => none

inductive Answer where
  | token (outcome : Except TokenFailure Token)
  | count (outcome : Except TokenFailure Nat)

def serve {σ : Type} [BindingStore σ] (m : Mint) (now : Millis) (op : Op) (s : σ) : Answer × σ :=
  match op with
  | .issueAccess seed user ttl =>
    let r := issueAccess m now seed user ttl s
    (.token r.1, r.2)
  | .issueRefresh seed userId ttl =>
    let r := issueRefresh m now seed userId ttl s
    (.token r.1, r.2)
  | .validate kind value =>
    let r := validate m now kind value s
    (.token r.1, r.2)
  | .revoke kind value =>
    let r := revoke m kind value s
    (.token r.1, r.2)
  | .revokeAll subject =>
    let r := revokeAll subject s
    (.count r.1, r.2)

structure Request where
  now : Millis
  instant : Nat
  op : Op

structure Event extends Request where
  answer : Answer

structure State where
  events : List Event := []
  store : MemoryBindings := {}

def State.storeAt (st : State) (instant : Nat) : MemoryBindings := { st.store with now := instant }

def step (m : Mint) (st : State) (r : Request) : State :=
  let served := serve m r.now r.op (st.storeAt r.instant)
  ⟨st.events ++ [⟨r, served.1⟩], served.2⟩

def run (m : Mint) (requests : List Request) : State := requests.foldl (step m) {}

structure Issued where
  token : Token
  now : Millis
  instant : Nat

namespace Event

def issued? (e : Event) : Option Issued :=
  match e.op, e.answer with
  | .issueAccess _ _ _, .token (.ok t) => some ⟨t, e.now, e.instant⟩
  | .issueRefresh _ _ _, .token (.ok t) => some ⟨t, e.now, e.instant⟩
  | _, _ => none

/-- Whether a request revoked a token: by its value, or with all tokens of its subject. -/
def revokes (e : Event) (t : Token) : Bool :=
  match e.op, e.answer with
  | .revoke _ value, .token (.ok _) => value == t.value
  | .revokeAll subject, .count (.ok _) => subject == t.subject
  | _, _ => false

def claims? (m : Mint) (e : Event) : Option Claims :=
  (e.op.order? m.policy).map fun o => m.claims e.now o.seed o.subject o.user o.ttl

end Event

def account (tokens : List Issued) (e : Event) : List Issued :=
  e.issued?.toList ++ tokens.filter fun i => !e.revokes i.token

/-- The tokens that were issued and not revoked since, the latest first. -/
def standing (events : List Event) : List Issued := events.foldl account []

theorem serve_order {σ : Type} [BindingStore σ] (m : Mint) (now : Millis) (op : Op) (s : σ)
    (o : Order) (h : op.order? m.policy = some o) :
    serve m now op s = (.token (bind now (m.issue now o.seed o.subject o.user o.ttl) s).1,
      (bind now (m.issue now o.seed o.subject o.user o.ttl) s).2) := by
  cases op with
  | issueAccess seed user ttl =>
    cases h
    rfl
  | issueRefresh seed userId ttl =>
    cases h
    rfl
  | validate kind value => cases h
  | revoke kind value => cases h
  | revokeAll subject => cases h

theorem issued_order (p : TokenPolicy) (e : Event) (i : Issued) (h : e.issued? = some i) :
    ∃ o, e.op.order? p = some o ∧ e.answer = .token (.ok i.token) ∧ i.now = e.now ∧
      i.instant = e.instant := by
  unfold Event.issued? at h
  split at h
  · rename_i hop hanswer
    cases h
    exact ⟨_, by rw [hop]; rfl, hanswer, rfl, rfl⟩
  · rename_i hop hanswer
    cases h
    exact ⟨_, by rw [hop]; rfl, hanswer, rfl, rfl⟩
  · cases h

theorem order_issued (p : TokenPolicy) (r : Request) (o : Order) (h : r.op.order? p = some o)
    (outcome : Except TokenFailure Token) : Event.issued? ⟨r, .token outcome⟩ =
      outcome.toOption.map fun t => ⟨t, r.now, r.instant⟩ := by
  obtain ⟨now, instant, op⟩ := r
  cases op with
  | issueAccess seed user ttl => cases outcome <;> rfl
  | issueRefresh seed userId ttl => cases outcome <;> rfl
  | validate kind value => cases h
  | revoke kind value => cases h
  | revokeAll subject => cases h

theorem order_revokes (p : TokenPolicy) (e : Event) (o : Order) (h : e.op.order? p = some o)
    (t : Token) : e.revokes t = false := by
  unfold Event.revokes
  split
  · rename_i hop _
    rw [hop] at h
    cases h
  · rename_i hop _
    rw [hop] at h
    cases h
  · rfl

theorem run_append (m : Mint) (requests : List Request) (r : Request) :
    run m (requests ++ [r]) = step m (run m requests) r := by
  simp [run]

theorem standing_append (events : List Event) (e : Event) :
    standing (events ++ [e]) = account (standing events) e := by
  simp [standing]

theorem mem_standing (events : List Event) (i : Issued) :
    i ∈ standing events ↔ ∃ before e after, events = before ++ e :: after ∧ e.issued? = some i ∧
      ∀ f ∈ after, f.revokes i.token = false := by
  induction events using List.reverseRecOn with
  | nil => simp [standing]
  | append_singleton events f ih =>
    rw [standing_append, account, List.mem_append, List.mem_filter, ih]
    constructor
    · rintro (hnew | ⟨⟨before, e, after, rfl, he, hafter⟩, hkept⟩)
      · exact ⟨events, f, [], rfl, by simpa using hnew, by simp⟩
      · refine ⟨before, e, after ++ [f], by simp, he, ?_⟩
        intro g hg
        rcases List.mem_append.mp hg with hg | hg
        · exact hafter g hg
        · rw [List.mem_singleton.mp hg]
          simpa using hkept
    · rintro ⟨before, e, after, hsplit, he, hafter⟩
      rcases List.eq_nil_or_concat after with rfl | ⟨rest, g, rfl⟩
      · obtain ⟨_, hfe⟩ := List.append_inj' hsplit rfl
        obtain rfl : f = e := by simpa using hfe
        exact Or.inl (by simp [he])
      · have hsplit' : events ++ [f] = (before ++ e :: rest) ++ [g] := by simpa using hsplit
        obtain ⟨hevents, hfg⟩ := List.append_inj' hsplit' rfl
        obtain rfl : f = g := by simpa using hfg
        refine Or.inr ⟨⟨before, e, rest, hevents, he, fun h hh => hafter h (by simp [hh])⟩, ?_⟩
        simpa using hafter f (by simp)

end Countersign.Registry
