import Countersign.Proofs.Account.Signature
import Mathlib.Control.Monad.Basic

/-!
# The texts that an account accepts

A signature is read only in the spelling in which it would be written, up to
white space around it. So a shared secret accepts one text for each request, and
whatever an account has signed it accepts, as does an account that holds the
public half of its key alone. Only a key of another family makes verification
fail instead of answering, and it does so for every text.
-/

set_option autoImplicit false

namespace Countersign

theorem decode_signature_iff (s : String) (b : Bytes) :
    decodeSignature? s = some b ↔ Text.trim s.toList = (encodeSignature b).toList := by
  rw [decodeSignature?, Base64.decode_iff Base64.standard_lawful, encodeSignature,
    String.toList_ofList, eq_comm]

theorem decode_surrounded (text : String) (b : Bytes)
    (h : Text.Surrounds text (encodeSignature b)) : decodeSignature? text = some b := by
  have hsigned : ∀ c ∈ (encodeSignature b).toList, Text.isBlank c = false := by
    intro c hc
    rw [encodeSignature, String.toList_ofList] at hc
    exact (standard_chars b c hc).1
  exact (decode_signature_iff text b).mpr (Text.trim_surrounds text _ h hsigned)

namespace KeyMaterial

def family : KeyMaterial → Algorithm
  | secret _ => .hmacSha256
  | rsaPrivate _ => .sha256WithRsa
  | rsaPublic _ => .sha256WithRsa

end KeyMaterial

namespace Algorithm

theorem hmac_verify (secret : String) (r : CanonicalRequest) (s : String) :
    hmacSha256.verify r (.secret secret) s = .ok (decide (Text.trim s.toList =
      (encodeSignature (Hmac.tag (Utf8.ofString secret) (hmacSha256.message r))).toList)) := by
  have full (tag : Bytes) (o : Option Bytes) : o.any (· == tag) = decide (o = some tag) := by
    cases o with
    | none => rfl
    | some b =>
      rw [Option.any_some, Bool.eq_iff_iff]
      simp
  rw [verify, full, decide_eq_decide.mpr (decode_signature_iff s _)]

/-- A shared secret accepts the text that it would write for a request, with white space around it
or without, and no other: signatures are spelled in one way. -/
theorem one_text_accepted (secret : String) (r : CanonicalRequest) :
    (∃ signature, hmacSha256.sign r (.secret secret) = .ok signature ∧
      ∀ s, hmacSha256.verify r (.secret secret) s =
        .ok (decide (Text.trim s.toList = signature.toList))) ∧
      (∀ b, decodeSignature? (encodeSignature b) = some b) ∧
      ∀ s b, decodeSignature? s = some b → Text.trim s.toList = (encodeSignature b).toList := by
  refine ⟨⟨_, rfl, hmac_verify secret r⟩, signature_decode, ?_⟩
  intro s b h
  exact (decode_signature_iff s b).mp h

theorem verify_decoded (a : Algorithm) (r : CanonicalRequest) (key : KeyMaterial) (s t : String)
    (h : decodeSignature? s = decodeSignature? t) : a.verify r key s = a.verify r key t := by
  cases a <;> cases key <;> simp only [verify, h]

theorem verify_error_iff (a : Algorithm) (r : CanonicalRequest) (key : KeyMaterial) (s : String)
    (e : SignatureError) :
    a.verify r key s = .error e ↔ key.family ≠ a ∧ e = .keyMismatch a := by
  cases a <;> cases key <;> simp [verify, KeyMaterial.family, eq_comm]

theorem sign_mismatch (a : Algorithm) (r : CanonicalRequest) (key : KeyMaterial)
    (h : key.family ≠ a) : a.sign r key = .error (.keyMismatch a) := by
  cases a <;> cases key <;> first | rfl | exact absurd rfl h

theorem verify_surrounded (a : Algorithm) (r : CanonicalRequest) (signer key : KeyMaterial)
    (signature text : String) (hkey : key.Verifies signer) (h : a.sign r signer = .ok signature)
    (htext : Text.Surrounds text signature) : a.verify r key text = .ok true := by
  obtain ⟨b, rfl⟩ := sign_encoded a r signer signature h
  rw [verify_decoded a r key text (encodeSignature b)
    ((decode_surrounded text b htext).trans (signature_decode b).symm)]
  exact sign_verify a r signer key _ hkey h

end Algorithm

namespace Account

/-- What an account signs is accepted by it and by whoever holds the public half of its key, with
white space around it or without; verification fails for one text exactly when it fails for all,
which is when the key is not made for the algorithm, and then signing fails in the same way. -/
theorem own_signature_accepted (account : Account) (r : CanonicalRequest) :
    (∀ signature text, account.sign r = .ok signature → Text.Surrounds text signature →
      account.verify r text = .ok true ∧
        ∀ (holder : Account) (half : Rsa.PublicKey), holder.algorithm = account.algorithm →
          account.key.public? = some half → holder.key = .rsaPublic half →
          holder.verify r text = .ok true) ∧
      ((∃ text e, account.verify r text = .error e) ↔ account.key.family ≠ account.algorithm) ∧
      ((∀ text, ∃ e, account.verify r text = .error e) ↔
        account.key.family ≠ account.algorithm) ∧
      (account.key.family ≠ account.algorithm →
        account.sign r = .error (.keyMismatch account.algorithm) ∧
          ∀ text, account.verify r text = .error (.keyMismatch account.algorithm)) := by
  have mismatch : ∀ text, account.key.family ≠ account.algorithm →
      account.verify r text = .error (.keyMismatch account.algorithm) :=
    fun text h => (Algorithm.verify_error_iff _ r _ text _).mpr ⟨h, rfl⟩
  have family : ∀ text e, account.verify r text = .error e →
      account.key.family ≠ account.algorithm :=
    fun text e h => ((Algorithm.verify_error_iff _ r _ text e).mp h).1
  refine ⟨?_, ?_, ?_, ?_⟩
  · intro signature text hsign htext
    refine ⟨Algorithm.verify_surrounded _ r _ _ signature text (Or.inl rfl) hsign htext, ?_⟩
    intro holder half halgorithm hhalf hkey
    rw [verify, halgorithm, hkey]
    exact Algorithm.verify_surrounded _ r _ _ signature text (Or.inr ⟨half, rfl, hhalf⟩) hsign htext
  · exact ⟨fun ⟨text, e, h⟩ => family text e h, fun h => ⟨"", _, mismatch "" h⟩⟩
  · constructor
    · intro h
      obtain ⟨e, he⟩ := h ""
      exact family "" e he
    · exact fun h text => ⟨_, mismatch text h⟩
  · exact fun h => ⟨Algorithm.sign_mismatch _ r _ h, fun text => mismatch text h⟩

def sampleKey : Rsa.PrivateKey where
  modulus := 9455971338815811492635855690215977341502196110432905992287581424177270436481564435643150122290919357772835974011030675572721660403738617456891736851251829
  exponent := 65537
  secret := 1432023369054838168735384099446016374176561276775662480331022867005804493371341315907309339562598165567345027686145591819205145869313769299158831715977473
  p := 100345944959386361293624604239568303755680041871919699085488078357679850115649
  q := 94233716595553369021604525060780572068582326290784045991517433045658596096821
  usable := by decide +kernel
  consistent := by decide +kernel

def sampleOwner : Account := ⟨"app", none, .rsaPrivate sampleKey, .sha256WithRsa⟩

def sampleHolder : Account := { sampleOwner with key := .rsaPublic sampleKey.toPublicKey }

def sampleForm : CanonicalRequest := .of "GET" "/" "n" "1" none none

def sampleText : String :=
  "Zg8FPE7gNrXLxxfVY3F6d+4VAY7uLyaQs0g2BvD35VlPBiod7BWIfe55obfL5Npxt5D7kfOdD2G148usjD7Z6A=="

theorem own_signature_accepted_rsa :
    sampleOwner.sign sampleForm = .ok sampleText ∧
      sampleOwner.verify sampleForm (" \t" ++ sampleText ++ "\n") = .ok true ∧
      sampleHolder.verify sampleForm (" \t" ++ sampleText ++ "\n") = .ok true ∧
      ({ sampleOwner with algorithm := .hmacSha256 } : Account).verify sampleForm sampleText =
        .error (.keyMismatch .hmacSha256) := by
  have hsign : sampleOwner.sign sampleForm = .ok sampleText := by decide +kernel
  have hblank : Text.Surrounds (" \t" ++ sampleText ++ "\n") sampleText :=
    ⟨[' ', '\t'], ['\n'], by decide, by
      rw [← List.all_eq_true]
      decide⟩
  have haccepted := (own_signature_accepted sampleOwner sampleForm).1 _ _ hsign hblank
  have hmismatch :=
    (own_signature_accepted { sampleOwner with algorithm := .hmacSha256 } sampleForm).2.2.2
      (by decide)
  exact ⟨hsign, haccepted.1, haccepted.2 sampleHolder sampleKey.toPublicKey rfl rfl rfl,
    hmismatch.2 sampleText⟩

end Account

end Countersign
