import Countersign.Proofs.Nonce.Ledger
import Countersign.Proofs.Time.Clock
import Countersign.Proofs.Verifier.Checks

/-!
# Runs of a verifier

A verifier answers one call after the other and keeps its ledger in between. In
each call the wall clock gives the reading, and the clock of the ledger the
instant, at which the call is made.
-/

set_option autoImplicit false

namespace Countersign

structure Call where
  now : Millis
  instant : Nat
  request : Http.Request
  body : Option Bytes

theorem split_at {α : Type} (xs : List α) (i : Nat) (x : α) (h : xs[i]? = some x) :
    xs = xs.take i ++ x :: xs.drop (i + 1) := by
  obtain ⟨hi, rfl⟩ := List.getElem?_eq_some_iff.mp h
  rw [List.getElem_cons_drop, List.take_append_drop]

namespace Verifier

def step (v : Verifier) (ledger : Option NonceLedger) (c : Call) : Verdict × Option NonceLedger :=
  v.verify c.now (ledger.map (·.atInstant c.instant)) c.request c.body

def ledgerAfter (v : Verifier) (ledger : Option NonceLedger) (calls : List Call) :
    Option NonceLedger :=
  calls.foldl (fun l c => (v.step l c).2) ledger

def verdicts (v : Verifier) : Option NonceLedger → List Call → List Verdict
  | _, [] => []
  | ledger, c :: calls => (v.step ledger c).1 :: v.verdicts (v.step ledger c).2 calls

theorem ledger_after_append (v : Verifier) (ledger : Option NonceLedger) (xs ys : List Call) :
    v.ledgerAfter ledger (xs ++ ys) = v.ledgerAfter (v.ledgerAfter ledger xs) ys := by
  simp [ledgerAfter]

theorem verdicts_get (v : Verifier) (ledger : Option NonceLedger) (calls : List Call) (i : Nat)
    (c : Call) (hc : calls[i]? = some c) :
    (v.verdicts ledger calls)[i]? = some (v.step (v.ledgerAfter ledger (calls.take i)) c).1 := by
  induction calls generalizing ledger i with
  | nil => cases hc
  | cons d calls ih =>
    cases i with
    | zero =>
      obtain rfl : d = c := Option.some.inj hc
      rfl
    | succ i => exact ih _ i hc

structure Clocked (calls : List Call) : Prop where
  together : ∃ origin, ∀ c ∈ calls, Together origin c.now c.instant
  forward : calls.Pairwise fun c d => c.instant ≤ d.instant

def Remembers (ledger : Option NonceLedger) (k : String) (limit : Nat) : Prop :=
  ∃ l, ledger = some l ∧ l.Remembers k limit

theorem step_remembers (v : Verifier) (ledger : Option NonceLedger) (c : Call) (k : String)
    (limit : Nat) (h : Remembers ledger k limit) (hn : c.instant < limit) :
    Remembers (v.step ledger c).2 k limit := by
  obtain ⟨l, rfl, hl⟩ := h
  rcases verify_ledger v c.now ((some l).map (·.atInstant c.instant)) c.request c.body with
    hsame | ⟨t, _, hrecord⟩
  · rw [step, hsame]
    exact ⟨_, rfl, hl⟩
  · rw [step, hrecord]
    exact ⟨_, rfl, NonceLedger.check_keeps _ _ _ _ k limit hl hn⟩

/-- A key is remembered throughout every run that ends before its time is over. -/
theorem run_remembers (v : Verifier) (ledger : Option NonceLedger) (calls : List Call) (k : String)
    (limit : Nat) (h : Remembers ledger k limit) (hn : ∀ c ∈ calls, c.instant < limit) :
    Remembers (v.ledgerAfter ledger calls) k limit := by
  induction calls generalizing ledger with
  | nil => exact h
  | cons c calls ih =>
    have hstep := step_remembers v ledger c k limit h (hn c (by simp))
    exact ih _ hstep fun d hd => hn d (by simp [hd])

theorem ledger_after_take (v : Verifier) (ledger : Option NonceLedger) (calls : List Call) (i : Nat)
    (c : Call) (hc : calls[i]? = some c) :
    v.ledgerAfter ledger (calls.take (i + 1)) = (v.step (v.ledgerAfter ledger (calls.take i)) c).2 := by
  obtain ⟨hi, rfl⟩ := List.getElem?_eq_some_iff.mp hc
  rw [List.take_add_one, List.getElem?_eq_getElem hi, Option.toList_some, ledger_after_append]
  rfl

theorem step_ledger (v : Verifier) (ledger : NonceLedger) (c : Call) :
    ∃ l, (v.step (some ledger) c).2 = some l := by
  rcases verify_ledger v c.now (some (ledger.atInstant c.instant)) c.request c.body with
    hsame | ⟨t, _, hrecord⟩
  · exact ⟨_, hsame⟩
  · exact ⟨_, hrecord⟩

theorem run_ledger (v : Verifier) (ledger : NonceLedger) (calls : List Call) :
    ∃ l, v.ledgerAfter (some ledger) calls = some l := by
  induction calls generalizing ledger with
  | nil => exact ⟨ledger, rfl⟩
  | cons c calls ih =>
    obtain ⟨l, hl⟩ := step_ledger v ledger c
    obtain ⟨l', hl'⟩ := ih l
    exact ⟨l', by rw [ledgerAfter, List.foldl_cons, hl, ← hl', ledgerAfter]⟩

end Verifier

end Countersign
