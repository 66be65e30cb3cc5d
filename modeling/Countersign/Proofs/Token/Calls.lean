import Countersign.Proofs.Token.History

/-!
# The calls of a registry

Each operation of a registry makes at most one call of its store, and only once its
text has been read or its token been signed. So there are seven ways for it to end,
and its answer follows from that of the call.
-/

set_option autoImplicit false

namespace Countersign.Registry

open BindingStore

/-! ## Recorded calls -/

inductive Call where
  | put (id subject : String) (ttl : Duration) (answer : Except StoreFailure Unit)
  | get (id : String) (answer : Except StoreFailure (Option String))
  | remove (id : String) (answer : Except StoreFailure Unit)
  | removeSubject (subject : String) (answer : Except StoreFailure Nat)

structure Recorded (σ : Type) where
  calls : List Call
  store : σ

instance {σ : Type} [BindingStore σ] : BindingStore (Recorded σ) where
  put s id subject ttl :=
    let (answer, store) := put s.store id subject ttl
    (answer, ⟨s.calls ++ [.put id subject ttl answer], store⟩)
  get s id :=
    let (answer, store) := get s.store id
    (answer, ⟨s.calls ++ [.get id answer], store⟩)
  remove s id :=
    let (answer, store) := remove s.store id
    (answer, ⟨s.calls ++ [.remove id answer], store⟩)
  removeSubject s subject :=
    let (answer, store) := removeSubject s.store subject
    (answer, ⟨s.calls ++ [.removeSubject subject answer], store⟩)

structure Served extends Event where
  calls : List Call

section

variable {σ : Type} [BindingStore σ] (m : Mint)

def served (s : σ) (r : Request) : Served :=
  ⟨⟨r, (serve m r.now r.op s).1⟩, (serve m r.now r.op (Recorded.mk [] s)).2.calls⟩

def left (s : σ) (r : Request) : σ := (serve m r.now r.op s).2

def course (s : σ) : List Request → List Served
  | [] => []
  | r :: rest => served m s r :: course (left m s r) rest

def behind (s : σ) : List Request → σ
  | [] => s
  | r :: rest => behind (left m s r) rest

def accepted (kind : TokenKind) (t : Token) :
    Except StoreFailure (Option String) → Except TokenFailure Token
  | .error e => .error (.store e)
  | .ok found =>
    if found = some t.subject then .ok t else .error (.notBound kind t.id t.subject found)

/-- All ways in which a request can be served: with its answer, its calls, and the store it leaves. -/
inductive Serves (s : σ) (r : Request) : Prop where
  | unsigned (o : Order) (e : TokenFailure) (ho : r.op.order? m.policy = some o)
      (hissue : m.issue r.now o.seed o.subject o.user o.ttl = .error e)
      (hanswer : (served m s r).answer = .token (.error e)) (hcalls : (served m s r).calls = [])
      (hleft : left m s r = s)
  | bound (o : Order) (t : Token) (ho : r.op.order? m.policy = some o)
      (hissue : m.issue r.now o.seed o.subject o.user o.ttl = .ok t)
      (hanswer : (served m s r).answer = .token
        ((orFailure (put s t.id t.subject (remaining r.now t.expireTime)).1).map fun _ => t))
      (hcalls : (served m s r).calls = [.put t.id t.subject (remaining r.now t.expireTime)
        (put s t.id t.subject (remaining r.now t.expireTime)).1])
      (hleft : left m s r = (put s t.id t.subject (remaining r.now t.expireTime)).2)
  | unread (kind : TokenKind) (value : String) (e : TokenFailure)
      (hop : r.op = .validate kind value) (hparse : m.parse r.now kind value = .error e)
      (hanswer : (served m s r).answer = .token (.error e)) (hcalls : (served m s r).calls = [])
      (hleft : left m s r = s)
  | asked (kind : TokenKind) (value : String) (t : Token) (hop : r.op = .validate kind value)
      (hparse : m.parse r.now kind value = .ok t)
      (hanswer : (served m s r).answer = .token (accepted kind t (get s t.id).1))
      (hcalls : (served m s r).calls = [.get t.id (get s t.id).1])
      (hleft : left m s r = (get s t.id).2)
  | flawed (kind : TokenKind) (value : String) (flaw : Flaw) (hop : r.op = .revoke kind value)
      (hdecode : m.decode kind value = .error flaw)
      (hanswer : (served m s r).answer = .token (.error (.flawed flaw)))
      (hcalls : (served m s r).calls = []) (hleft : left m s r = s)
  | unbound (kind : TokenKind) (value : String) (t : Token) (hop : r.op = .revoke kind value)
      (hdecode : m.decode kind value = .ok t)
      (hanswer : (served m s r).answer = .token ((orFailure (remove s t.id).1).map fun _ => t))
      (hcalls : (served m s r).calls = [.remove t.id (remove s t.id).1])
      (hleft : left m s r = (remove s t.id).2)
  | unboundAll (subject : String) (hop : r.op = .revokeAll subject)
      (hanswer : (served m s r).answer = .count (orFailure (removeSubject s subject).1))
      (hcalls : (served m s r).calls = [.removeSubject subject (removeSubject s subject).1])
      (hleft : left m s r = (removeSubject s subject).2)

theorem validate_read (now : Millis) (kind : TokenKind) (value : String) (t : Token) (s : σ)
    (h : m.parse now kind value = .ok t) :
    validate m now kind value s = (accepted kind t (get s t.id).1, (get s t.id).2) := by
  simp only [validate, h]
  obtain ⟨answer, after⟩ := get s t.id
  cases answer with
  | error e => rfl
  | ok found =>
    simp only [accepted]
    split <;> rfl

theorem revoke_read (kind : TokenKind) (value : String) (t : Token) (s : σ)
    (h : m.decode kind value = .ok t) : revoke m kind value s =
      ((orFailure (remove s t.id).1).map fun _ => t, (remove s t.id).2) := by
  unfold revoke
  rw [h]

theorem order_serves (s : σ) (r : Request) (o : Order) (ho : r.op.order? m.policy = some o) :
    Serves m s r := by
  have hplain := serve_order m r.now r.op s o ho
  have hrecorded := serve_order m r.now r.op (Recorded.mk [] s) o ho
  cases hissue : m.issue r.now o.seed o.subject o.user o.ttl with
  | error e =>
    rw [hissue] at hplain hrecorded
    apply Serves.unsigned o e ho hissue
    · rw [served, hplain]
      rfl
    · rw [served, hrecorded]
      rfl
    · rw [left, hplain]
      rfl
  | ok t =>
    rw [hissue] at hplain hrecorded
    apply Serves.bound o t ho hissue
    · rw [served, hplain]
      rfl
    · rw [served, hrecorded]
      rfl
    · rw [left, hplain]
      rfl

theorem request_serves (s : σ) (r : Request) : Serves m s r := by
  cases hop : r.op with
  | issueAccess seed user ttl =>
    apply order_serves m s r ⟨seed, user.id, some user, ttl.getD m.policy.accessTtl⟩
    rw [hop]
    rfl
  | issueRefresh seed userId ttl =>
    apply order_serves m s r ⟨seed, userId, none, ttl.getD m.policy.refreshTtl⟩
    rw [hop]
    rfl
  | validate kind value =>
    cases hparse : m.parse r.now kind value with
    | error e =>
      apply Serves.unread kind value e hop hparse
      all_goals simp only [served, left, hop, serve, validate, hparse]
    | ok t =>
      apply Serves.asked kind value t hop hparse
      all_goals simp only [served, left, hop, serve, validate_read m r.now kind value t _ hparse]
      rfl
  | revoke kind value =>
    cases hdecode : m.decode kind value with
    | error flaw =>
      apply Serves.flawed kind value flaw hop hdecode
      all_goals simp only [served, left, hop, serve, revoke, hdecode]
    | ok t =>
      apply Serves.unbound kind value t hop hdecode
      all_goals simp only [served, left, hop, serve, revoke_read m kind value t _ hdecode]
      rfl
  | revokeAll subject =>
    apply Serves.unboundAll subject hop
    all_goals simp only [served, left, hop, serve, revokeAll]
    rfl

/-- Recording changes neither an answer nor a store. -/
theorem recorded_serve (s : σ) (r : Request) (calls : List Call) :
    (serve m r.now r.op (Recorded.mk calls s)).1 = (serve m r.now r.op s).1 ∧
      (serve m r.now r.op (Recorded.mk calls s)).2.store = (serve m r.now r.op s).2 := by
  have horder : ∀ issued : Except TokenFailure Token,
      (bind r.now issued (Recorded.mk calls s)).1 = (bind r.now issued s).1 ∧
        (bind r.now issued (Recorded.mk calls s)).2.store = (bind r.now issued s).2 := by
    intro issued
    cases issued with
    | error e => exact ⟨rfl, rfl⟩
    | ok t => exact ⟨rfl, rfl⟩
  cases r.op with
  | issueAccess seed user ttl =>
    obtain ⟨hanswer, hstore⟩ := horder (m.issueAccess r.now seed user ttl)
    exact ⟨congrArg Answer.token hanswer, hstore⟩
  | issueRefresh seed userId ttl =>
    obtain ⟨hanswer, hstore⟩ := horder (m.issueRefresh r.now seed userId ttl)
    exact ⟨congrArg Answer.token hanswer, hstore⟩
  | validate kind value =>
    cases hparse : m.parse r.now kind value with
    | error e =>
      simp only [serve, validate, hparse, and_self]
    | ok t =>
      simp only [serve, validate_read m r.now kind value t _ hparse]
      exact ⟨rfl, rfl⟩
  | revoke kind value =>
    cases hdecode : m.decode kind value with
    | error flaw =>
      simp only [serve, revoke, hdecode, and_self]
    | ok t =>
      simp only [serve, revoke_read m kind value t _ hdecode]
      exact ⟨rfl, rfl⟩
  | revokeAll subject => exact ⟨rfl, rfl⟩

theorem course_split (s : σ) (requests : List Request) (before after : List Served) (e : Served)
    (h : course m s requests = before ++ e :: after) :
    ∃ earlier r later, requests = earlier ++ r :: later ∧ before = course m s earlier ∧
      e = served m (behind m s earlier) r ∧
      after = course m (left m (behind m s earlier) r) later := by
  induction requests generalizing s before with
  | nil => simp [course] at h
  | cons r rest ih =>
    cases before with
    | nil =>
      obtain ⟨rfl, rfl⟩ := List.cons.inj h
      exact ⟨[], r, rest, rfl, rfl, rfl, rfl⟩
    | cons f before =>
      obtain ⟨rfl, hrest⟩ := List.cons.inj h
      obtain ⟨earlier, r', later, rfl, rfl, rfl, rfl⟩ := ih _ _ hrest
      exact ⟨r :: earlier, r', later, rfl, rfl, rfl, rfl⟩

theorem course_served (s : σ) (requests : List Request) :
    ∀ e ∈ course m s requests, ∃ r ∈ requests, ∃ s' : σ, e = served m s' r := by
  induction requests generalizing s with
  | nil => simp [course]
  | cons r rest ih =>
    intro e he
    rcases List.mem_cons.mp he with rfl | he
    · exact ⟨r, List.mem_cons_self, s, rfl⟩
    · obtain ⟨r', hr', s', rfl⟩ := ih (left m s r) e he
      exact ⟨r', List.mem_cons_of_mem _ hr', s', rfl⟩

theorem course_member (s : σ) (requests : List Request) (r : Request) (hr : r ∈ requests) :
    ∃ e ∈ course m s requests, e.toRequest = r := by
  induction requests generalizing s with
  | nil => cases hr
  | cons r' rest ih =>
    rcases List.mem_cons.mp hr with rfl | hr
    · exact ⟨_, List.mem_cons_self, rfl⟩
    · obtain ⟨e, he, hsame⟩ := ih (left m s r') hr
      exact ⟨e, List.mem_cons_of_mem _ he, hsame⟩

theorem accepted_iff (kind : TokenKind) (t u : Token)
    (answer : Except StoreFailure (Option String)) :
    accepted kind t answer = .ok u ↔ answer = .ok (some t.subject) ∧ u = t := by
  cases answer with
  | error e => simp [accepted]
  | ok found =>
    rw [accepted]
    split <;> simp_all [eq_comm]

theorem given_iff {α : Type} (t u : Token) (answer : Except StoreFailure α) :
    (orFailure answer).map (fun _ => t) = .ok u ↔ (∃ x, answer = .ok x) ∧ u = t := by
  cases answer with
  | error e => simp [orFailure, Except.map]
  | ok x => simp [orFailure, Except.map, eq_comm]

theorem issue_served (s : σ) (r : Request) (o : Order) (t : Token)
    (ho : r.op.order? m.policy = some o) (h : (served m s r).answer = .token (.ok t)) :
    (served m s r).calls = [.put t.id t.subject (remaining r.now t.expireTime) (.ok ())] := by
  have hop : ∀ op, r.op = op → op.order? m.policy = some o := fun op hop => hop ▸ ho
  cases request_serves m s r with
  | bound o' u ho' hissue hanswer hcalls hleft =>
    rw [hanswer, Answer.token.injEq, given_iff] at h
    obtain ⟨⟨⟨⟩, hput⟩, rfl⟩ := h
    rw [hcalls, hput]
  | asked kind value u hop' => cases hop _ hop'
  | unbound kind value u hop' => cases hop _ hop'
  | unsigned o' e ho' hissue hanswer | unread kind value e hop' hparse hanswer
  | flawed kind value flaw hop' hdecode hanswer | unboundAll x hop' hanswer =>
    rw [hanswer] at h
    cases h

/-- A text that is no token of its kind is refused before the store is asked anything. -/
theorem flawed_served (s : σ) (r : Request) (kind : TokenKind) (value : String) (flaw : Flaw)
    (hop : r.op = .revoke kind value) (h : m.decode kind value = .error flaw) :
    (served m s r).answer = .token (.error (.flawed flaw)) ∧ (served m s r).calls = [] := by
  cases request_serves m s r with
  | flawed kind' value' flaw' hop' hdecode hanswer hcalls hleft =>
    rw [hop] at hop'
    cases hop'
    rw [h] at hdecode
    cases hdecode
    exact ⟨hanswer, hcalls⟩
  | unbound kind' value' u hop' hdecode =>
    rw [hop] at hop'
    cases hop'
    rw [h] at hdecode
    cases hdecode
  | unsigned o e ho | bound o u ho =>
    rw [hop] at ho
    cases ho
  | unread kind' value' e hop' | asked kind' value' u hop' | unboundAll x hop' =>
    rw [hop] at hop'
    cases hop'

end

/-- The token that a request makes, bound or not. -/
def Request.minted? (m : Mint) (r : Request) : Option Token :=
  (r.op.order? m.policy).bind fun o => (m.issue r.now o.seed o.subject o.user o.ttl).toOption

theorem minted_of_order (m : Mint) (r : Request) (o : Order) (t : Token)
    (ho : r.op.order? m.policy = some o)
    (ht : m.issue r.now o.seed o.subject o.user o.ttl = .ok t) : r.minted? m = some t := by
  rw [Request.minted?, ho, Option.bind_some, ht]
  rfl

theorem minted_issue (m : Mint) (r : Request) (t : Token) (h : r.minted? m = some t) :
    ∃ o : Order, m.issue r.now o.seed o.subject o.user o.ttl = .ok t := by
  obtain ⟨o, _, ho⟩ := Option.bind_eq_some_iff.mp h
  refine ⟨o, ?_⟩
  cases hissue : m.issue r.now o.seed o.subject o.user o.ttl with
  | error e =>
    rw [hissue] at ho
    cases ho
  | ok u =>
    rw [hissue] at ho
    exact congrArg Except.ok (Option.some.inj ho)

end Countersign.Registry
