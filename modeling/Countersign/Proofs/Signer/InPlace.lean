import Countersign.Proofs.Signer
import Countersign.Proofs.Verifier.Signed

/-!
# Signing a request where it stands

A request that is signed where it stands keeps its method, target and body and all
headers of other names; one that cannot be signed keeps everything. Under each name
of a signature that was written the value that was there before is gone. An account
without a version writes none, and then the version of an earlier signature stays:
the request goes on naming it however often such accounts sign it again.
-/

set_option autoImplicit false

namespace Countersign

namespace Outgoing

def values (m : Outgoing) (name : Http.HeaderName) : List Http.HeaderValue :=
  m.request.headers.values name

/-- All that stays as it was when at most headers of the given names are written. -/
structure Frame (n : HeaderNames) (before after : Outgoing) : Prop where
  method : after.request.method = before.request.method
  target : after.request.target = before.request.target
  body : after.body = before.body
  others : ∀ name ∉ n.all, after.values name = before.values name

theorem Frame.refl (n : HeaderNames) (m : Outgoing) : Frame n m m := ⟨rfl, rfl, rfl, fun _ _ => rfl⟩

theorem Frame.trans {n : HeaderNames} {m₁ m₂ m₃ : Outgoing} (h : Frame n m₁ m₂)
    (k : Frame n m₂ m₃) : Frame n m₁ m₃ :=
  ⟨k.method.trans h.method, k.target.trans h.target, k.body.trans h.body,
    fun name hname => (k.others name hname).trans (h.others name hname)⟩

/-- No signature header enters what a signature is made over. -/
theorem Frame.signable {n : HeaderNames} {before after : Outgoing} (h : Frame n before after)
    (hc : Http.contentTypeName ∉ n.all) : after.signable = before.signable := by
  have hcontent : after.request.headers.values Http.contentTypeName =
      before.request.headers.values Http.contentTypeName := h.others _ hc
  simp only [Outgoing.signable, Signable.ofRequest, Http.Request.contentType?, Http.Headers.text?,
    Http.Headers.get_eq_head, h.method, h.target, h.body, hcontent]

end Outgoing

namespace Signer

theorem run_in_place (g : Signer) (now : Millis) (nonce : Nonce) (account : Account)
    (m : Outgoing) :
    (g.signInPlace now nonce account).run m =
      match g.signedHeaders now nonce m.signable account with
      | .error e => (.error e, m)
      | .ok headers => (.ok (), m.write headers) := by
  simp only [signInPlace, StateT.run_bind, StateT.run_get, pure_bind]
  cases g.signedHeaders now nonce m.signable account with
  | error e => rfl
  | ok headers => rfl

/-- Signing a request where it stands makes of it what signing a copy of it gives. -/
theorem in_place_sign (g : Signer) (now : Millis) (nonce : Nonce) (account : Account)
    (m : Outgoing) :
    (g.signInPlace now nonce account).run m =
      match g.sign now nonce m.request m.body account with
      | .error e => (.error e, m)
      | .ok signed => (.ok (), { m with request := signed }) := by
  have hsign : g.sign now nonce m.request m.body account =
      g.signedHeaders now nonce m.signable account >>=
        fun headers => pure (m.write headers).request := rfl
  rw [run_in_place, hsign]
  cases g.signedHeaders now nonce m.signable account with
  | error e => rfl
  | ok headers => rfl

section Written

variable (p : Policy) (g : Signer) (hg : ofPolicy p = .ok g) (now : Millis) (nonce : Nonce)
  (s : Signable) (account : Account) (headers : Http.Headers)
  (h : g.signedHeaders now nonce s account = .ok headers) (m : Outgoing)

include hg h

theorem write_frame : Outgoing.Frame g.names m (m.write headers) :=
  ⟨rfl, rfl, rfl, fun name hname =>
    (unwritten_values p g hg now nonce s account headers h name (Or.inl hname)).2 m.request.headers⟩

theorem version_kept (hnone : account.version = none) :
    (m.write headers).values g.names.version = m.values g.names.version :=
  (unwritten_values p g hg now nonce s account headers h g.names.version
    (Or.inr ⟨rfl, hnone⟩)).2 m.request.headers

end Written

/-- A request that is signed where it stands has exactly the headers of the signature under their
names, and is otherwise as it was. Only the version, if the account has none, is left standing. -/
theorem signed_in_place (p : Policy) (g : Signer) (hg : ofPolicy p = .ok g) (now : Millis)
    (nonce : Nonce) (account : Account) (before : Outgoing) :
    (∀ e, g.signedHeaders now nonce before.signable account = .error e →
      (g.signInPlace now nonce account).run before = (.error e, before)) ∧
    ∀ headers, g.signedHeaders now nonce before.signable account = .ok headers →
      ∃ after, (g.signInPlace now nonce account).run before = (.ok (), after) ∧
        Outgoing.Frame g.names before after ∧
        (∀ name ∈ g.names.all, (name = g.names.version → account.version ≠ none) →
          ∃ v, headers.values name = [v] ∧ after.values name = [v]) ∧
        (account.version = none → headers.values g.names.version = [] ∧
          after.values g.names.version = before.values g.names.version) ∧
        ((∀ name ∈ g.names.all, after.values name = headers.values name) ↔
          (account.version = none → before.values g.names.version = [])) := by
  refine ⟨fun e he => by rw [run_in_place, he], fun headers h => ⟨before.write headers, ?_⟩⟩
  have named : ∀ name ∈ g.names.all, (name = g.names.version → account.version ≠ none) →
      ∃ v, headers.values name = [v] ∧ (before.write headers).values name = [v] := by
    intro name hname hversion
    obtain ⟨v, hvalues, hwritten⟩ :=
      written_values p g hg now nonce _ account headers h name hname hversion
    exact ⟨v, hvalues, hwritten before.request.headers⟩
  have unversioned : account.version = none → headers.values g.names.version = [] ∧
      (before.write headers).values g.names.version = before.values g.names.version := by
    intro hnone
    have habsent := (unwritten_values p g hg now nonce _ account headers h g.names.version
      (Or.inr ⟨rfl, hnone⟩)).1
    exact ⟨habsent, version_kept p g hg now nonce _ account headers h before hnone⟩
  refine ⟨by rw [run_in_place, h], write_frame p g hg now nonce _ account headers h before, named,
    unversioned, ?_, ?_⟩
  · intro hexact hnone
    obtain ⟨habsent, hkept⟩ := unversioned hnone
    rw [← hkept, hexact g.names.version (by simp [HeaderNames.all]), habsent]
  · intro hbare name hname
    by_cases hversion : name = g.names.version → account.version ≠ none
    · obtain ⟨v, hvalues, hwritten⟩ := named name hname hversion
      rw [hvalues, hwritten]
    · obtain ⟨rfl, hne⟩ := Classical.not_imp.mp hversion
      have hnone := not_not.mp hne
      obtain ⟨habsent, hkept⟩ := unversioned hnone
      rw [hkept, habsent, hbare hnone]

section Samples

open Verifier

def staleRequest : Outgoing :=
  let stale : Http.HeaderValue := ⟨Utf8.ofString "0", zero_value⟩
  ⟨{ headers := [(sampleNames.version, stale), (sampleNames.sign, stale),
      (sampleNames.version, stale)] }, sampleBody⟩

theorem signed_in_place_stale : ∃ headers after,
    Signer.signedHeaders ⟨sampleNames⟩ 0 sampleNonce staleRequest.signable sampleAccount =
        .ok headers ∧
      (Signer.signInPlace ⟨sampleNames⟩ 0 sampleNonce sampleAccount).run staleRequest =
        (.ok (), after) ∧
      Outgoing.Frame sampleNames staleRequest after ∧
      ∀ name ∈ sampleNames.all, ∃ v, headers.values name = [v] ∧ after.values name = [v] := by
  obtain ⟨headers, hheaders, _⟩ := Outcome.ok_of_any
    (Signer.signedHeaders ⟨sampleNames⟩ 0 sampleNonce staleRequest.signable sampleAccount)
    (fun _ => true) (by decide +kernel)
  obtain ⟨after, hrun, hframe, hnamed, _⟩ := (signed_in_place {} _ sample_signer 0 sampleNonce
    sampleAccount staleRequest).2 headers hheaders
  exact ⟨headers, after, hheaders, hrun, hframe, fun name hname =>
    hnamed name hname fun _ hnone => nomatch hnone⟩

def sampleOutgoing : Outgoing := ⟨sampleRequest, sampleBody⟩

/-- A request signed with the second key and then, where it stands, with the key that has no version
still names the second key. -/
theorem version_left_standing : ∃ first second headers,
    (Signer.signInPlace ⟨sampleNames⟩ 0 sampleNonce sampleAccount).run sampleOutgoing =
        (.ok (), first) ∧
      Signer.signedHeaders ⟨sampleNames⟩ 0 sampleNonce first.signable plainAccount = .ok headers ∧
      (Signer.signInPlace ⟨sampleNames⟩ 0 sampleNonce plainAccount).run first = (.ok (), second) ∧
      headers.values sampleNames.version = [] ∧
      (second.values sampleNames.version).map (·.text?) = [some "2"] := by
  obtain ⟨written, hwritten, htext⟩ := Outcome.ok_of_any
    (Signer.signedHeaders ⟨sampleNames⟩ 0 sampleNonce sampleOutgoing.signable sampleAccount)
    (fun written => decide
      (((sampleOutgoing.write written).values sampleNames.version).map (·.text?) = [some "2"]))
    (by decide +kernel)
  obtain ⟨headers, hheaders, _⟩ := Outcome.ok_of_any
    (Signer.signedHeaders ⟨sampleNames⟩ 0 sampleNonce sampleOutgoing.signable plainAccount)
    (fun _ => true) (by decide +kernel)
  have hsame : (sampleOutgoing.write written).signable = sampleOutgoing.signable :=
    (write_frame {} _ sample_signer 0 sampleNonce _ sampleAccount written hwritten
      sampleOutgoing).signable
        (HeaderNames.spelled_content_type (HeaderNames.of_stem_ok _ _ sample_names))
  have habsent := (unwritten_values {} _ sample_signer 0 sampleNonce _ plainAccount headers
    hheaders sampleNames.version (Or.inr ⟨rfl, rfl⟩)).1
  have hkept := version_kept {} _ sample_signer 0 sampleNonce _ plainAccount headers hheaders
    (sampleOutgoing.write written) rfl
  refine ⟨sampleOutgoing.write written, (sampleOutgoing.write written).write headers, headers,
    ?_, ?_, ?_, habsent, ?_⟩
  · rw [run_in_place, hwritten]
  · rw [hsame, hheaders]
  · rw [run_in_place, hsame, hheaders]
  · rw [hkept]
    exact of_decide_eq_true htext

end Samples

section Retries

structure Attempt where
  now : Millis
  nonce : Nonce
  account : Account

def attempts (g : Signer) (tries : List Attempt) (m : Outgoing) : Outgoing :=
  tries.foldl (fun m t => ((g.signInPlace t.now t.nonce t.account).run m).2) m

variable (p : Policy) (g : Signer) (hg : ofPolicy p = .ok g)

include hg

theorem attempt_keeps (t : Attempt) (m : Outgoing) :
    Outgoing.Frame g.names m ((g.signInPlace t.now t.nonce t.account).run m).2 ∧
      (t.account.version = none →
        ((g.signInPlace t.now t.nonce t.account).run m).2.values g.names.version =
          m.values g.names.version) := by
  rw [run_in_place]
  cases h : g.signedHeaders t.now t.nonce m.signable t.account with
  | error e => exact ⟨.refl g.names m, fun _ => rfl⟩
  | ok headers =>
    exact ⟨write_frame p g hg t.now t.nonce _ t.account headers h m,
      version_kept p g hg t.now t.nonce _ t.account headers h m⟩

/-- However often a request is signed where it stands, the same is signed each time. -/
theorem attempts_frame (tries : List Attempt) (m : Outgoing) :
    Outgoing.Frame g.names m (g.attempts tries m) ∧ (g.attempts tries m).signable = m.signable := by
  have hframe : Outgoing.Frame g.names m (g.attempts tries m) := by
    induction tries generalizing m with
    | nil => exact .refl g.names m
    | cons t tries ih => exact (attempt_keeps p g hg t m).1.trans (ih _)
  have hspelled := HeaderNames.of_stem_ok p.stem g.names (of_policy_names p g hg)
  exact ⟨hframe, hframe.signable (HeaderNames.spelled_content_type hspelled)⟩

/-- Accounts without a version never take the version of an earlier signature away. -/
theorem attempts_version (tries : List Attempt) (m : Outgoing)
    (h : ∀ t ∈ tries, t.account.version = none) :
    (g.attempts tries m).values g.names.version = m.values g.names.version := by
  induction tries generalizing m with
  | nil => rfl
  | cons t tries ih =>
    exact (ih _ fun u hu => h u (by simp [hu])).trans
      ((attempt_keeps p g hg t m).2 (h t (by simp)))

end Retries

end Signer

end Countersign
