/-
TrustModelEdge.Lib.Signing — signed tokens, seen from the log of the
signatures that were made.

Unforgeability is stated for one log and up to the payload: what verifies
under a public key was signed with a matching private key, and the log has it,
in whatever text it is presented. Exactness adds that the text is the signed
one, and the converse for payloads that the verifier has no other reason to
refuse. A token carries its payload, so equal tokens have equal payloads.
-/
import Mathlib.Data.List.Basic

namespace TrustModelEdge.Lib

/-- One signature: the private key, what was signed, and the token. -/
structure Signature (κ τ π : Type*) where
  key : κ
  token : τ
  payload : π

variable {κ ν τ π : Type*}

/-- A payload that `verify` accepts is `valid`, and the log has a signature of it with a
matching key. -/
structure Unforgeable (verify : ν → τ → Option π) (publicKey : κ → Option ν)
    (valid : π → Prop) (log : List (Signature κ τ π)) : Prop where
  sound : ∀ v t p, verify v t = some p →
    valid p ∧ ∃ s ∈ log, publicKey s.key = some v ∧ s.payload = p

/-- `verify` answers by the signatures in `log`: it accepts the signed texts only, and of
them those whose payload is `acceptable`. -/
structure VerifiesExactly (verify : ν → τ → Option π) (publicKey : κ → Option ν)
    (valid acceptable : π → Prop) (log : List (Signature κ τ π)) : Prop
    extends Unforgeable verify publicKey valid log where
  signed : ∀ v t p, verify v t = some p →
    ∃ s ∈ log, publicKey s.key = some v ∧ s.token = t ∧ s.payload = p
  exact_ : ∀ s ∈ log, ∀ v, publicKey s.key = some v → acceptable s.payload →
    verify v s.token = some s.payload
  carries : ∀ s ∈ log, ∀ s' ∈ log, s.token = s'.token → s.payload = s'.payload

namespace VerifiesExactly

variable {verify : ν → τ → Option π} {publicKey : κ → Option ν} {valid acceptable : π → Prop}
  {log : List (Signature κ τ π)}

/-- A token of the log verifies, if at all, to the payload that was signed. -/
theorem payload_eq (h : VerifiesExactly verify publicKey valid acceptable log)
    {s : Signature κ τ π} (hs : s ∈ log) {v : ν} {p : π} (hp : verify v s.token = some p) :
    p = s.payload := by
  obtain ⟨s', hs', -, ht, rfl⟩ := h.signed v s.token p hp
  exact h.carries s' hs' s hs ht

end VerifiesExactly

end TrustModelEdge.Lib
