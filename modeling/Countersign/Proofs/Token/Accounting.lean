import Countersign.Proofs.Token.History
import Countersign.Proofs.Token.Mint
import Countersign.Proofs.Token.Registry
import Mathlib.Data.List.Nodup

/-!
# The store accounts for the standing tokens

A store in memory that began empty holds the bindings of exactly the standing
tokens of its history, those whose time is over included. What is needed for
that is that no two tokens share an id, and that an issued text is read back with
the claims that it was issued with.
-/

set_option autoImplicit false

namespace Countersign.Registry

def issuedTokens (events : List Event) : List Issued := events.filterMap Event.issued?

/-- No two tokens of a history share an id, be they issued in it or revoked by their value. -/
structure Distinct (events : List Event) : Prop where
  issued : ((issuedTokens events).map fun i => i.token.id).Nodup
  revoked : ∀ e ∈ events, ∀ kind value t, e.op = .revoke kind value → e.answer = .token (.ok t) →
    ∀ i ∈ issuedTokens events, i.token.id = t.id → i.token.value = value

/-- Every issued text is read back with the claims that were asked for. -/
def Faithful (m : Mint) (events : List Event) : Prop :=
  ∀ e ∈ events, ∀ i c, e.issued? = some i → e.claims? m = some c →
    Mint.verifiedClaims m.keys i.token.value = .ok c

def Issued.ending (i : Issued) : Nat := i.instant + (remaining i.now i.token.expireTime).nanos

def Issued.binding (i : Issued) : Binding := ⟨i.token.id, i.token.subject, i.ending⟩

/-- A token that its mint reads back, issued before its time was over. -/
structure Issued.Sound (m : Mint) (i : Issued) : Prop where
  genuine : ∃ c, m.genuineClaims i.token.value = .ok c ∧ i.token = c.token i.token.value
  started : 0 ≤ i.now.toInt ∧ i.now.toInt ≤ i.token.expireTime.toInt

def Accounted (events : List Event) (s : MemoryBindings) : Prop :=
  s.entries = (standing events).map Issued.binding

theorem distinct_earlier (events : List Event) (e : Event) (h : Distinct (events ++ [e])) :
    Distinct events := by
  constructor
  · have hd := h.issued
    rw [issuedTokens, List.filterMap_append, List.map_append] at hd
    exact (List.nodup_append.mp hd).1
  · intro f hf kind value t hop hanswer i hi
    exact h.revoked f (by simp [hf]) kind value t hop hanswer i
      (by rw [issuedTokens, List.filterMap_append]; exact List.mem_append_left _ hi)

theorem standing_issued (events : List Event) (i : Issued) (h : i ∈ standing events) :
    i ∈ issuedTokens events := by
  obtain ⟨before, e, after, rfl, he, _⟩ := (mem_standing events i).mp h
  exact List.mem_filterMap.mpr ⟨e, by simp, he⟩

theorem new_id (events : List Event) (e : Event) (t : Issued) (ht : e.issued? = some t)
    (h : Distinct (events ++ [e])) (i : Issued) (hi : i ∈ standing events) :
    i.token.id ≠ t.token.id := by
  have hd := h.issued
  rw [issuedTokens, List.filterMap_append, List.map_append] at hd
  apply (List.nodup_append.mp hd).2.2
  · exact List.mem_map.mpr ⟨i, standing_issued events i hi, rfl⟩
  · simp [ht]

theorem same_id (events : List Event) (h : Distinct events) (i j : Issued)
    (hi : i ∈ issuedTokens events) (hj : j ∈ issuedTokens events)
    (hid : i.token.id = j.token.id) : i = j :=
  List.inj_on_of_nodup_map h.issued hi hj hid

theorem issued_split (before after : List Event) (e : Event) (i : Issued)
    (he : e.issued? = some i) (h : Distinct (before ++ e :: after)) :
    i ∉ issuedTokens before ∧ i ∉ issuedTokens after := by
  have hd := h.issued
  rw [issuedTokens, List.filterMap_append, List.filterMap_cons_some he, List.map_append,
    List.map_cons] at hd
  obtain ⟨_, hlater, happart⟩ := List.nodup_append.mp hd
  constructor
  · intro hi
    exact happart _ (List.mem_map.mpr ⟨i, hi, rfl⟩) _ (by simp) rfl
  · intro hi
    exact (List.nodup_cons.mp hlater).1 (List.mem_map.mpr ⟨i, hi, rfl⟩)

theorem standing_iff (before after : List Event) (e : Event) (i : Issued)
    (he : e.issued? = some i) (h : Distinct (before ++ e :: after)) :
    i ∈ standing (before ++ e :: after) ↔ ∀ f ∈ after, f.revokes i.token = false := by
  have unissued := issued_split before after e i he h
  rw [mem_standing]
  constructor
  · rintro ⟨before', e', after', hsplit, he', hafter⟩
    rcases List.append_eq_append_iff.mp hsplit with ⟨xs, _, hxs⟩ | ⟨xs, hxs, htail⟩
    · cases xs with
      | nil =>
        rw [(List.cons.inj hxs).2]
        exact hafter
      | cons x xs =>
        refine absurd (List.mem_filterMap.mpr ⟨e', ?_, he'⟩) unissued.2
        rw [(List.cons.inj hxs).2]
        simp
    · cases xs with
      | nil =>
        rw [← (List.cons.inj htail).2]
        exact hafter
      | cons x xs =>
        refine absurd (List.mem_filterMap.mpr ⟨e', ?_, he'⟩) unissued.1
        rw [hxs, ← (List.cons.inj htail).1]
        simp
  · intro hafter
    exact ⟨before, e, after, rfl, he, hafter⟩

theorem served_issued (m : Mint) (e : Event) (s : MemoryBindings)
    (h : e.answer = (serve m e.now e.op s).1) (i : Issued) (hi : e.issued? = some i) :
    ∃ o, e.op.order? m.policy = some o ∧
      m.issue e.now o.seed o.subject o.user o.ttl = .ok i.token ∧ i.now = e.now := by
  obtain ⟨o, ho, hanswer, hnow, _⟩ := issued_order m.policy e i hi
  rw [hanswer, serve_order m e.now e.op s o ho] at h
  refine ⟨o, ho, ?_, hnow⟩
  rcases bind_cases e.now s (m.issue e.now o.seed o.subject o.user o.ttl) with
    ⟨f, hf⟩ | ⟨t, ht, hf⟩
  · rw [hf] at h
    cases h
  · rw [hf] at h
    cases h
    exact ht

theorem served_sound (m : Mint) (events : List Event) (hfaithful : Faithful m events) (e : Event)
    (he : e ∈ events) (s : MemoryBindings) (h : e.answer = (serve m e.now e.op s).1)
    (hnow : 0 ≤ e.now.toInt) (i : Issued) (hi : e.issued? = some i) : i.Sound m := by
  obtain ⟨o, ho, hissue, hread⟩ := served_issued m e s h i hi
  have htoken := m.issue_token _ _ _ _ _ _ hissue
  have hclaims : e.claims? m = some (m.claims e.now o.seed o.subject o.user o.ttl) := by
    rw [Event.claims?, ho, Option.map_some]
  have hgenuine := m.genuine_issued _ _ _ _ _ _ hnow (hfaithful e he i _ hi hclaims)
  constructor
  · exact ⟨_, hgenuine, htoken⟩
  · rw [hread, htoken]
    exact ⟨hnow, Mint.expiry_ge e.now o.ttl⟩

theorem run_events (m : Mint) (requests : List Request) :
    ∀ e ∈ (run m requests).events, e.toRequest ∈ requests ∧
      ∃ s : MemoryBindings, e.answer = (serve m e.now e.op s).1 := by
  induction requests using List.reverseRecOn with
  | nil =>
    intro e he
    cases he
  | append_singleton requests r ih =>
    intro e he
    rw [run_append, step] at he
    rcases List.mem_append.mp he with he | he
    · obtain ⟨hr, hs⟩ := ih e he
      exact ⟨List.mem_append_left _ hr, hs⟩
    · obtain rfl := List.mem_singleton.mp he
      exact ⟨by simp, _, rfl⟩

theorem account_idle (tokens : List Issued) (e : Event) (hi : e.issued? = none)
    (hr : ∀ t, e.revokes t = false) : account tokens e = tokens := by
  simp [account, hi, hr]

variable (m : Mint) (events : List Event) (r : Request) (s : MemoryBindings)

theorem order_accounted (o : Order) (ho : r.op.order? m.policy = some o) (hnow : s.now = r.instant)
    (h : Accounted events s)
    (hdistinct : Distinct (events ++ [⟨r, (serve m r.now r.op s).1⟩])) :
    Accounted (events ++ [⟨r, (serve m r.now r.op s).1⟩]) (serve m r.now r.op s).2 := by
  rw [serve_order m r.now r.op s o ho] at hdistinct ⊢
  have hissued := order_issued m.policy r o ho
  have hrevokes : ∀ answer t, Event.revokes ⟨r, answer⟩ t = false :=
    fun answer t => order_revokes m.policy ⟨r, answer⟩ o ho t
  rcases bind_cases r.now s (m.issue r.now o.seed o.subject o.user o.ttl) with
    ⟨f, hf⟩ | ⟨t, _, hf⟩
  · rw [hf, Accounted, standing_append, account_idle _ _ (hissued _) (hrevokes _)]
    exact h
  · rw [hf] at hdistinct ⊢
    have hkept : (s.erase t.id).entries = s.entries := by
      apply List.filter_eq_self.mpr
      intro b hb
      rw [h] at hb
      obtain ⟨i, hi, rfl⟩ := List.mem_map.mp hb
      have hid : i.token.id ≠ t.id :=
        new_id events _ ⟨t, r.now, r.instant⟩ (hissued _) hdistinct i hi
      exact decide_eq_true hid
    have hall : ((standing events).filter fun i => !Event.revokes ⟨r, .token (.ok t)⟩ i.token) =
        standing events := by
      simp [hrevokes]
    rw [Accounted, standing_append, account, hissued, hall]
    show _ :: (s.erase t.id).entries = _
    rw [hkept, h, hnow]
    rfl

theorem binding_filter (tokens : List Issued) (keep : Binding → Bool) :
    (tokens.map Issued.binding).filter keep =
      (tokens.filter fun i => keep i.binding).map Issued.binding := by
  rw [List.filter_map]
  rfl

theorem revoke_accounted (kind : TokenKind) (value : String) (hop : r.op = .revoke kind value)
    (hsound : ∀ i ∈ standing events, i.Sound m) (h : Accounted events s)
    (hdistinct : Distinct (events ++ [⟨r, (serve m r.now r.op s).1⟩])) :
    Accounted (events ++ [⟨r, (serve m r.now r.op s).1⟩]) (serve m r.now r.op s).2 := by
  obtain ⟨now, instant, op⟩ := r
  obtain rfl : op = .revoke kind value := hop
  rcases revoke_cases m kind value s with ⟨f, hf⟩ | ⟨t, ht, hf⟩
  · simp only [serve, hf]
    rw [Accounted, standing_append, account_idle _ _ rfl fun _ => rfl]
    exact h
  · simp only [serve, hf] at hdistinct ⊢
    obtain ⟨c, hc, rfl⟩ := m.decode_value kind value t ht
    have hsame : ∀ i ∈ standing events, i.token.id = c.id ↔ value = i.token.value := by
      intro i hi
      have hissued : i ∈ issuedTokens (events ++ [⟨⟨now, instant, .revoke kind value⟩,
          .token (.ok (c.token value))⟩]) := by
        rw [issuedTokens, List.filterMap_append]
        exact List.mem_append_left _ (standing_issued events i hi)
      constructor
      · intro hid
        exact (hdistinct.revoked _ (List.mem_append_right _ (List.mem_singleton.mpr rfl)) kind value
          (c.token value) rfl rfl i hissued hid).symm
      · rintro rfl
        obtain ⟨c', hc', hi'⟩ := (hsound i hi).genuine
        rw [hc] at hc'
        cases hc'
        exact congrArg Token.id hi'
    rw [Accounted, standing_append]
    show s.entries.filter (fun b => b.id ≠ c.id) =
      ((standing events).filter fun i => !(value == i.token.value)).map Issued.binding
    rw [h, binding_filter]
    congr 1
    apply List.filter_congr
    intro i hi
    simp [Issued.binding, hsame i hi, beq_eq_decide]

theorem revoke_all_accounted (subject : String) (hop : r.op = .revokeAll subject)
    (h : Accounted events s) :
    Accounted (events ++ [⟨r, (serve m r.now r.op s).1⟩]) (serve m r.now r.op s).2 := by
  obtain ⟨now, instant, op⟩ := r
  obtain rfl : op = .revokeAll subject := hop
  rw [Accounted, standing_append]
  show s.entries.filter (fun b => b.subject ≠ subject) =
    ((standing events).filter fun i => !(subject == i.token.subject)).map Issued.binding
  rw [h, binding_filter]
  congr 1
  apply List.filter_congr
  intro i _
  simp [Issued.binding, beq_eq_decide, eq_comm]

theorem serve_accounted (hsound : ∀ i ∈ standing events, i.Sound m) (hnow : s.now = r.instant)
    (h : Accounted events s)
    (hdistinct : Distinct (events ++ [⟨r, (serve m r.now r.op s).1⟩])) :
    Accounted (events ++ [⟨r, (serve m r.now r.op s).1⟩]) (serve m r.now r.op s).2 := by
  obtain ⟨now, instant, op⟩ := r
  cases op with
  | issueAccess seed user ttl => exact order_accounted m events _ s _ rfl hnow h hdistinct
  | issueRefresh seed userId ttl => exact order_accounted m events _ s _ rfl hnow h hdistinct
  | validate kind value =>
    show Accounted _ (validate m now kind value s).2
    rw [validate_store, Accounted, standing_append, account_idle _ _ rfl fun _ => rfl]
    exact h
  | revoke kind value => exact revoke_accounted m events _ s kind value rfl hsound h hdistinct
  | revokeAll subject => exact revoke_all_accounted m events _ s subject rfl h

/-- A run keeps the bindings those of the standing tokens. -/
theorem run_accounted (requests : List Request)
    (hsound : ∀ i ∈ issuedTokens (run m requests).events, i.Sound m)
    (hdistinct : Distinct (run m requests).events) :
    Accounted (run m requests).events (run m requests).store := by
  induction requests using List.reverseRecOn with
  | nil => rfl
  | append_singleton requests r ih =>
    rw [run_append, step] at hsound hdistinct ⊢
    have hearlier : ∀ i ∈ issuedTokens (run m requests).events, i.Sound m := by
      intro i hi
      apply hsound i
      rw [issuedTokens, List.filterMap_append]
      exact List.mem_append_left _ hi
    have haccounted := ih hearlier (distinct_earlier _ _ hdistinct)
    exact serve_accounted m _ r _ (fun i hi => hearlier i (standing_issued _ i hi)) rfl haccounted
      hdistinct

end Countersign.Registry
