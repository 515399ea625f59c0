import PushDispatch.Digest.Sha256

/-! Authentication of messages by a shared key: HMAC over SHA-256. -/

namespace PushDispatch.Hmac

def blockSize : Nat := 64

/-- A key of one block: a longer one is digested first, a shorter one is filled with zeros. -/
def blockKey (key : Bytes) : Bytes :=
  let short := if blockSize < key.length then Sha256.digest key else key
  short ++ List.replicate (blockSize - short.length) 0

def masked (mask : UInt8) (key : Bytes) : Bytes := (blockKey key).map (· ^^^ mask)

def sign (key message : Bytes) : Bytes :=
  Sha256.digest (masked 0x5C key ++ Sha256.digest (masked 0x36 key ++ message))

end PushDispatch.Hmac
