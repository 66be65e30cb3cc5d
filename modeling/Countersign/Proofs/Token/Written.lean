import Countersign.Proofs.Encoding.Base64
import Countersign.Proofs.Outcome
import Countersign.Proofs.Rsa.Signature
import Countersign.Token.Mint

/-!
# Reading a token text

The parts of a token are free of dots, so the two last dots of its text are the
ones that were written between them. With the public half of the key the text is
read as the claims that it was written with, as far as JSON tells them.
-/

set_option autoImplicit false

namespace Countersign.Mint

theorem part_dot_free (b : Bytes) : '.' ∉ part b := by
  have hchar : ∀ n < 64, Base64.Spelling.urlSafe.char n ≠ '.' := by decide
  intro h
  rcases Base64.encode_chars b '.' h with hfill | ⟨n, hn, hdot⟩
  · cases hfill
  · exact hchar n hn hdot.symm

theorem split_last (message tail : List Char) (h : '.' ∉ tail) :
    splitLast? (message ++ '.' :: tail) = some (message, tail) := by
  have hkept : ∀ c ∈ tail.reverse, decide (c ≠ '.') = true := by
    intro c hc
    exact decide_eq_true fun hdot => h (hdot ▸ List.mem_reverse.mp hc)
  have hreverse : (message ++ '.' :: tail).reverse = tail.reverse ++ '.' :: message.reverse := by
    simp
  have htail : (tail.reverse ++ '.' :: message.reverse).takeWhile (· ≠ '.') = tail.reverse := by
    rw [List.takeWhile_append_of_pos hkept]
    simp
  simp only [splitLast?, hreverse, htail, List.drop_left, List.reverse_reverse]

theorem split_last_iff (cs message tail : List Char) :
    splitLast? cs = some (message, tail) ↔ cs = message ++ '.' :: tail ∧ '.' ∉ tail := by
  constructor
  · intro h
    have hfree : '.' ∉ cs.reverse.takeWhile (· ≠ '.') := fun hm =>
      of_decide_eq_true (List.all_eq_true.mp List.all_takeWhile '.' hm) rfl
    have hsplit := List.prefix_iff_eq_append.mp
      (List.takeWhile_prefix (l := cs.reverse) fun c => decide (c ≠ '.'))
    simp only [splitLast?] at h
    split at h
    · next rest hrest =>
      cases h
      rw [hrest] at hsplit
      have hcs := congrArg List.reverse hsplit
      exact ⟨by simpa using hcs.symm, by simpa using hfree⟩
    · cases h
  · rintro ⟨rfl, hfree⟩
    exact split_last message tail hfree

theorem header_algorithm :
    algorithmOf (part (Utf8.encode Token.Header.common.print)) = .ok Token.Header.algorithm := by
  rfl

theorem or_flaw_some {α : Type} (flaw : Flaw) (x : α) : orFlaw flaw (some x) = .ok x := rfl

theorem bytes_of_part (b : Bytes) : bytesOf (part b) = .ok b := by
  rw [bytesOf, part, Base64.decode_encode Base64.url_safe_lawful]
  rfl

theorem verified_written (keys : KeyPair) (k : SigningKey) (v : VerifyingKey)
    (hkeys : keys.verifying = some v) (hhalf : v.toPublicNumbers = k.toPublicNumbers) (c : Claims)
    (value : String) (h : write k c = .ok value) :
    verifiedClaims keys value = orFlaw .notJson (Claims.ofBytes? (Utf8.encode c.toJson.print)) := by
  obtain ⟨signature, hsign, hvalue⟩ := (Outcome.bind_ok _ _ _).mp h
  obtain rfl := (Outcome.pure_ok _ _).mp hvalue
  have hverify : v.verify (Utf8.encode (signedParts c)) signature = true := by
    rw [VerifyingKey.verify, hhalf]
    exact Rsa.sign_verify _ _ _ _ _ _ hsign
  have hbits := split_last (signedParts c) (part signature) (part_dot_free signature)
  have hparts : splitLast? (signedParts c) =
      some (part (Utf8.encode Token.Header.common.print), part (Utf8.encode c.toJson.print)) :=
    split_last _ _ (part_dot_free _)
  simp only [verifiedClaims, String.toList_ofList, hbits, hparts, or_flaw_some, header_algorithm,
    bytes_of_part, hkeys, hverify, bind, Except.bind, ne_eq, not_true_eq_false, if_false,
    Option.any_some, Bool.not_true, Bool.false_eq_true]

theorem issue_written (m : Mint) (now : Millis) (seed : Nonce) (subject : String)
    (user : Option User) (ttl : Duration) (t : Token) (h : m.issue now seed subject user ttl = .ok t) :
    ∃ k, m.keys.signing = some k ∧ write k (m.claims now seed subject user ttl) = .ok t.value := by
  simp only [issue] at h
  split at h
  · next value hvalue =>
    obtain ⟨k, hk, hwrite⟩ := Option.map_eq_some_iff.mp hvalue
    rw [← Except.ok.inj h]
    exact ⟨k, hk, hwrite⟩
  · cases h

/-- What a mint with a pair of matching keys has issued, it reads back. -/
theorem verified_issued (m : Mint) (k : SigningKey) (v : VerifyingKey)
    (hsigning : m.keys.signing = some k) (hverifying : m.keys.verifying = some v)
    (hhalf : v.toPublicNumbers = k.toPublicNumbers) (now : Millis) (seed : Nonce) (subject : String)
    (user : Option User) (ttl : Duration) (t : Token) (h : m.issue now seed subject user ttl = .ok t) :
    verifiedClaims m.keys t.value = orFlaw .notJson
      (Claims.ofBytes? (Utf8.encode (m.claims now seed subject user ttl).toJson.print)) := by
  obtain ⟨signer, hsigner, hwrite⟩ := issue_written m now seed subject user ttl t h
  obtain rfl : k = signer := Option.some.inj (hsigning.symm.trans hsigner)
  exact verified_written m.keys k v hverifying hhalf _ _ hwrite

end Countersign.Mint
