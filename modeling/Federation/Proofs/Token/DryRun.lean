import Federation.Proofs.Evaluate.Reference

/-!
# Dry runs

The payload of a token is a claim object, and reading it as a sample makes a token without
any key or signature.  If the token itself is decoded, then so is the sample, and both
are the same identity but for the time of issue, which the present stands for where the
payload gives none.  No decision depends on it, so what is decided on the sample is what
is decided on the token.  Main statement: `Jwt.readSample_of_decode`.
-/

namespace Federation

open Json (Document)

/-! ### Claim sets -/

namespace ClaimSet

variable {c : ClaimSet} {now : Instant} {token : IdentityToken}

/-- An expiry that is given needs nothing that stands for it. -/
theorem expiryOr_of_expiryOr_none {expiry : Instant} (h : c.expiryOr none = .ok expiry)
    (default : Option Instant) :
  c.expiryOr default = .ok expiry
  := by
  rw [expiryOr] at h ⊢
  split at h
  · exact h
  · cases h

/-- A time of issue that is given does not depend on the present. -/
theorem issuedAtOr_of_issuedAtOr {issuedAt : Instant} (h : c.issuedAtOr now = .ok issuedAt)
    (later : Instant) :
  c.issuedAtOr later = .ok issuedAt
    ∨ c.issuedAt = none ∧ issuedAt = now ∧ c.issuedAtOr later = .ok later
  := by
  rw [issuedAtOr] at h ⊢
  split at h
  · left
    exact h
  · rename_i hnone
    right
    cases h
    rw [hnone]
    exact ⟨rfl, rfl, rfl⟩

/-- A claim set with an expiry makes a token at any other time, and whatever stands for an
expiry; the token differs at most in its time of issue, and only if none is given. -/
theorem exists_toToken_of_toToken (h : c.toToken now none = .ok token) (later : Instant)
    (default : Option Instant) :
  ∃ issuedAt, c.toToken later default = .ok { token with issuedAt }
    ∧ (issuedAt = token.issuedAt
      ∨ c.issuedAt = none ∧ token.issuedAt = now ∧ issuedAt = later)
  := by
  obtain ⟨hissuer, hsubject, hothers, haudience, hexpiry, hissuedAt⟩ := eq_of_toToken h
  have hmade : ∀ issuedAt, c.issuedAtOr later = .ok issuedAt →
      c.toToken later default = .ok { token with issuedAt } := by
    intro issuedAt hissuedAt
    rw [toToken_eq, hissuer, hsubject, hothers, haudience, hissuedAt,
      expiryOr_of_expiryOr_none hexpiry]
    rfl
  rcases issuedAtOr_of_issuedAtOr hissuedAt later with hsame | ⟨hnone, hnow, hlater⟩
  · exact ⟨token.issuedAt, hmade _ hsame, .inl rfl⟩
  · exact ⟨later, hmade _ hlater, .inr ⟨hnone, hnow, rfl⟩⟩

end ClaimSet

/-- The time of issue of an identity has no part in what is decided on it. -/
theorem evaluate_issuedAt (s : BindingSet) (t : IdentityToken) (ctx : EvalContext)
    (issuedAt : Instant) :
  evaluate s { t with issuedAt } ctx = evaluate s t ctx
  := by
  apply evaluate_congr_token
  · rfl
  · rfl
  · rfl
  · rfl
  · intro b _ name _
    rfl

namespace Jwt

open Keys

/-- The payload of a token that is decoded is read as a sample of the same identity, at
any later or earlier time, and decided on as the token is. -/
theorem readSample_of_decode {verifies : Verifier} {web : Web} {accepted : Accepted}
    {now : Instant} {raw : String} {s : BindingSet} {ring : KeyRing} {token : IdentityToken}
    (h : ((decode verifies web accepted now raw s).run.run ring).1 = .ok token)
    (later : Instant) :
  ∃ t text members sample,
    Compact.ofChars? raw.toList = some t
    ∧ t.payloadText? = some text
    ∧ Document.parse? text = some (.object members)
    ∧ readSample later text = .ok sample
    ∧ sample.issuer = token.issuer
    ∧ sample.subject = token.subject
    ∧ sample.audience = token.audience
    ∧ sample.claims = token.claims
    ∧ sample.expiry = token.expiry
    ∧ (sample.issuedAt = token.issuedAt
      ∨ (Document.given members "iat" = [] ∨ Document.given members "iat" = [.null])
        ∧ token.issuedAt = now ∧ sample.issuedAt = later)
    ∧ ∀ (s' : BindingSet) (ctx : EvalContext), evaluate s' sample ctx = evaluate s' token ctx
  := by
  rw [decode] at h
  obtain ⟨p, _, hinspect, h⟩ := Fetch.exists_of_bind_eq_ok h
  obtain ⟨k, _, -, h⟩ := Fetch.exists_of_bind_eq_ok h
  rw [Fetch.run_lift] at hinspect h
  have hp := readFrom_of_inspect hinspect
  obtain ⟨text, members, htext, hdoc, hclaims, hread⟩ :=
    Compact.exists_members_of_payload? hp.payload
  obtain ⟨issuedAt, hsample, hissuedAt⟩ := ClaimSet.exists_toToken_of_toToken
    (exists_key_of_verifyWith h).2 later
    (some (later.addMillis (1000 * IdentityToken.defaultLifetime)))
  refine ⟨p.token, text, members, { token with issuedAt }, hp.token, htext, hdoc, ?_,
    rfl, rfl, rfl, rfl, rfl, ?_, ?_⟩
  · rw [readSample, hclaims]
    exact hsample
  · rcases hissuedAt with hsame | ⟨hnone, hnow, hlater⟩
    · exact .inl hsame
    · have hgiven := hread.issuedAt
      rw [hnone] at hgiven
      exact .inr ⟨hgiven, hnow, hlater⟩
  · intro s' ctx
    apply evaluate_issuedAt

theorem readSample_of_decode_sample :
  ∃ t text members sample,
    Compact.ofChars? Sample.raw.toList = some t
    ∧ t.payloadText? = some text
    ∧ Document.parse? text = some (.object members)
    ∧ readSample (.addMillis .epoch 5000) text = .ok sample
    ∧ sample.issuer = Sample.token.issuer
    ∧ sample.subject = Sample.token.subject
    ∧ sample.audience = Sample.token.audience
    ∧ sample.claims = Sample.token.claims
    ∧ sample.expiry = Sample.token.expiry
    ∧ (sample.issuedAt = Sample.token.issuedAt
      ∨ (Document.given members "iat" = [] ∨ Document.given members "iat" = [.null])
        ∧ Sample.token.issuedAt = .epoch ∧ sample.issuedAt = .addMillis .epoch 5000)
    ∧ ∀ (s' : BindingSet) (ctx : EvalContext),
      evaluate s' sample ctx = evaluate s' Sample.token ctx
  := readSample_of_decode Sample.decode_raw (.addMillis .epoch 5000)

end Jwt

end Federation
