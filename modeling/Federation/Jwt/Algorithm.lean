import Federation.Json.Decoder

/-!
# Signature algorithms

The algorithms that the header of a web token can name.  Those with a shared secret are
symmetric: whoever can verify their signatures can also make them.
-/

namespace Federation.Jwt

/-- A signature algorithm. -/
inductive Algorithm where
  | hs256
  | hs384
  | hs512
  | es256
  | es384
  | rs256
  | rs384
  | rs512
  | ps256
  | ps384
  | ps512
  | edDsa
deriving DecidableEq, Repr

namespace Algorithm

/-- The name of an algorithm. -/
def name : Algorithm → String
  | hs256 => "HS256"
  | hs384 => "HS384"
  | hs512 => "HS512"
  | es256 => "ES256"
  | es384 => "ES384"
  | rs256 => "RS256"
  | rs384 => "RS384"
  | rs512 => "RS512"
  | ps256 => "PS256"
  | ps384 => "PS384"
  | ps512 => "PS512"
  | edDsa => "EdDSA"

/-- The algorithms. -/
def all : List Algorithm :=
  [hs256, hs384, hs512, es256, es384, rs256, rs384, rs512, ps256, ps384, ps512, edDsa]

/-- The algorithms by name. -/
def names : List (String × Algorithm) := all.map fun a => (a.name, a)

/-- Reads an algorithm from its JSON form. -/
def decoder : Json.Decoder Algorithm := .name names

/-- Whether an algorithm works with a shared secret. -/
def isSymmetric (a : Algorithm) : Bool := a = hs256 || a = hs384 || a = hs512

/-- The family of the keys that an algorithm works with. -/
def keyType : Algorithm → String
  | es256 | es384 => "EC"
  | edDsa => "OKP"
  | _ => "RSA"

end Algorithm
end Federation.Jwt
