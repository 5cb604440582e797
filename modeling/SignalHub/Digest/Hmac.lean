import SignalHub.Digest.Sha256

/-! HMAC with SHA-256: a message is hashed twice, each time behind a block made from the secret. -/
namespace SignalHub.Hmac

def blockSize : Nat := 64

/-- The secret filled up to a block; a long one is hashed first. -/
def key (secret : List UInt8) : List UInt8 :=
  let short := if secret.length ≤ blockSize then secret else Sha256.digest secret
  short ++ List.replicate (blockSize - short.length) 0

def code (secret message : List UInt8) : List UInt8 :=
  let inner := (key secret).map (· ^^^ 0x36)
  let outer := (key secret).map (· ^^^ 0x5c)
  Sha256.digest (outer ++ Sha256.digest (inner ++ message))

end SignalHub.Hmac
