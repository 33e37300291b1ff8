/-
TrustModelEdge.Py.Crypto — the calls into `hashlib`, `hmac`, `uuid`,
`cryptography` and PyJWT.

What these compute is a parameter. Encoding text to bytes before the call
is Python's own, and it raises on a lone surrogate, so it stays outside
the parameters.
-/
import TrustModelEdge.Py.Exc

namespace TrustModelEdge.Py

/-- `s.encode("utf-8")`. -/
def encode (s : Str) : Except Exc Bytes :=
  match encodeUtf8 s with
  | some b => .ok b
  | none => .error .unicodeEncodeError

/-- The bytes of a literal. -/
def asciiBytes (s : Str) : Bytes := s.flatMap utf8Bytes

/-- `hmac.compare_digest` of two texts. -/
def compareDigest (a b : Str) : Except Exc Bool :=
  if isAscii a && isAscii b then .ok (a == b) else .error .typeError

structure HashLib where
  /-- `hashlib.pbkdf2_hmac("sha256", password, salt, iterations)`. -/
  pbkdf2 : Bytes → Bytes → Int → Except Exc Bytes
  /-- `hmac.new(key, message, hashlib.sha256).hexdigest()`. -/
  hmacSha256 : Bytes → Bytes → Str
  /-- `str(uuid.uuid5(namespace, name))` in the tenant namespace. -/
  uuid5 : Bytes → Str

inductive JwtError where
  /-- A `PyJWTError` with its text. -/
  | pyJwtError (message : Str)
  | other (e : Exc)

structure JwtLib where
  /-- `jwt.encode(payload, key, algorithm="RS256")`. -/
  encode : Json → Str → Except Exc Str
  /-- `jwt.decode(token, key, algorithms=["RS256"], options={"require": ["exp",
  "iat", "sub"]})` at the given time. -/
  decode : Rat → Str → Bytes → Except JwtError Json
  /-- The public key, in PEM, of a private key in PEM. -/
  publicPem : Bytes → Except Exc Bytes

/-- The text has UTF-8 bytes. -/
def Encodes (s : Str) : Prop := s.any isSurrogate = false

theorem encode_of_encodes {s : Str} (h : Encodes s) : encode s = .ok (s.flatMap utf8Bytes) := by
  rw [Encodes] at h
  simp [encode, encodeUtf8, h]

theorem encode_of_not_encodes {s : Str} (h : ¬ Encodes s) :
    encode s = .error .unicodeEncodeError := by
  rw [Encodes, Bool.not_eq_false] at h
  simp [encode, encodeUtf8, h]

end TrustModelEdge.Py
