import PlatformBridge.Digest.Sha256
import PlatformBridge.Json.Printer

/-!
# Content Digests

Digests of bytes and of values. A value is digested through its canonical text, so equal values have
equal digests whatever the order of their members.

## Main definitions

* `Digest`: A digest in hexadecimal.
* `Digest.ofBytes`, `Digest.ofText`, `Digest.ofJson`: Digests of contents.
* `Digest.short`: The first digits of a digest.
-/

namespace PlatformBridge

/-- A digest in hexadecimal. -/
structure Digest where
  hex : String
  deriving DecidableEq, Repr, Inhabited

namespace Digest

/-- Two lower-case hexadecimal digits for each byte. -/
def hexDigits (bytes : List UInt8) : List Char :=
  bytes.flatMap fun b => [Json.hexDigit (b.toNat / 16), Json.hexDigit (b.toNat % 16)]

/-- The digest of some bytes. -/
def ofBytes (bytes : ByteArray) : Digest :=
  ⟨String.ofList (hexDigits (Sha256.digest bytes))⟩

/-- The digest of a text. -/
def ofText (text : String) : Digest := ofBytes text.toUTF8

/-- The digest of a value. -/
def ofJson (value : Json) : Digest := ofText value.canonical

/-- The first `n` digits, or all of them if there are not that many. -/
def short (d : Digest) (n : Nat) : String :=
  if n ≤ d.hex.length then String.ofList (d.hex.toList.take n) else d.hex

end Digest

end PlatformBridge
