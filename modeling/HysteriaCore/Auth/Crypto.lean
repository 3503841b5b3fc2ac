import HysteriaCore.Lib.Bytes
import HysteriaCore.Lib.Words

/-!
# Numbers, hashes and tokens of the authserver (BigNumber.cpp, SHA1.cpp, TOTP.cpp)

A `BigNumber` is a natural number, a byte array a list of bytes. The hash functions and
the hexadecimal texts are those of OpenSSL and stay parameters.
-/

namespace HysteriaCore.Auth
open Lib

/-- What is called of OpenSSL. `hex2bn` is `none` for a text at which `BN_hex2bn` leaves
the number as it was; the empty text is one. -/
structure Crypto where
  sha1 : Bytes → Bytes
  hmacSha1 : Bytes → Bytes → Bytes
  hex2bn : Bytes → Option ℕ
  bn2hex : ℕ → Bytes
  hex2bn_nil : hex2bn [] = none

/-- `SetRand(bits)`, that is `BN_rand(_, bits, 0, 1)`: the highest bit and the lowest are
set. -/
def Rand (bits : ℕ) : Type := { n : ℕ // 2 ^ (bits - 1) ≤ n ∧ n < 2 ^ bits ∧ n % 2 = 1 }

def Rand.least (k : ℕ) : Rand (k + 2) :=
  ⟨2 ^ (k + 1) + 1, by
    have hpos : 1 ≤ 2 ^ k := Nat.one_le_two_pow
    simp only [show k + 2 - 1 = k + 1 by omega, Nat.pow_succ]
    omega⟩

/-! ### BigNumber -/

def setBinary (bytes : Bytes) : ℕ := bytes.foldr (fun b n => b.toNat + 256 * n) 0

def numBytes (n : ℕ) : ℕ := if n = 0 then 0 else n.log2 / 8 + 1

def littleEndian : ℕ → ℕ → Bytes
  | 0, _ => []
  | k + 1, n => UInt8.ofNat n :: littleEndian k (n / 256)

/-- `AsByteArray(minSize)`: `BN_bn2bin` fills the array from its start, and the whole array
is reversed, so that the padding comes first. -/
def asByteArray (n : ℕ) (minSize : ℕ) : Bytes :=
  List.replicate (minSize - numBytes n) 0 ++ littleEndian (numBytes n) n

def bnBytes (n : ℕ) : Bytes := asByteArray n 0

def modExp (a e m : ℕ) : ℕ := a ^ e % m

/-! ### Tokens -/

def base32Digit (c : UInt8) : Option ℕ :=
  let ch := c.toNat
  let ch := if ch = 48 then 79 else if ch = 49 then 76 else if ch = 56 then 66 else ch
  if (65 ≤ ch ∧ ch ≤ 90) ∨ (97 ≤ ch ∧ ch ≤ 122) then some (ch % 32 - 1)
  else if 50 ≤ ch ∧ ch ≤ 55 then some (ch - 24)
  else none

/-- The loop of `base32_decode`: `buffer`, `bitsLeft` and the bytes of `result` so far. -/
def base32Loop (bufSize : ℕ) : Bytes → ℕ → ℕ → Bytes → Bytes
  | [], _, _, result => result
  | c :: rest, buffer, bitsLeft, result =>
    if bufSize ≤ result.length then result
    -- blank, carriage return, line feed and '-'; a tab is no member of the list
    else if c = 32 ∨ c = 13 ∨ c = 10 ∨ c = 45 then base32Loop bufSize rest buffer bitsLeft result
    else
      match base32Digit c with
      | none => result
      | some d =>
        let buffer := u32 (buffer * 32) + d
        let bitsLeft := bitsLeft + 5
        if 8 ≤ bitsLeft then
          base32Loop bufSize rest buffer (bitsLeft - 8)
            (result ++ [UInt8.ofNat (buffer / 2 ^ (bitsLeft - 8))])
        else base32Loop bufSize rest buffer bitsLeft result

def base32Decode (encoded : Bytes) (bufSize : ℕ) : Bytes :=
  let result := base32Loop bufSize encoded 0 0 []
  result ++ List.replicate (bufSize - result.length) 0

def generateToken (C : Crypto) (b32key : Bytes) (time : ℕ) : ℕ :=
  let key := cstr b32key
  let bufsize := (key.length + 7) / 8 * 5
  let challenge := (littleEndian 8 (time / 30)).reverse
  let hmacRes := C.hmacSha1 (base32Decode key bufsize) challenge
  let byte := fun i => (hmacRes.getD i 0).toNat
  let offset := byte 19 % 16
  let truncHash := byte offset * 2 ^ 24 + byte (offset + 1) * 2 ^ 16 +
    byte (offset + 2) * 2 ^ 8 + byte (offset + 3)
  truncHash % 2 ^ 31 % 1000000

/-- `unsigned int incomingToken = atoi(token)`: white space, a sign, digits; the value is
cut to a `long` and then to 32 bits. -/
def atoi (token : Bytes) : ℕ :=
  let text := token.dropWhile fun c => decide (c = 32 ∨ 9 ≤ c.toNat ∧ c.toNat ≤ 13)
  let value : ℤ :=
    match text with
    | c :: rest =>
      if c = 45 then max (-2 ^ 63) (-(digits rest 0 : ℤ))
      else if c = 43 then min (2 ^ 63 - 1) (digits rest 0)
      else min (2 ^ 63 - 1) (digits text 0)
    | [] => 0
  (value % 2 ^ 32).toNat

end HysteriaCore.Auth
