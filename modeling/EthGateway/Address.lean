import EthGateway.Text

/-
# EthGateway.Address -- addresses in mixed case

An address is twenty bytes, written as `0x` and forty hexadecimal digits. In the form of EIP-55 the
case of the letters is a checksum: a letter is a capital where the digit at the same place of the
Keccak-256 hash of the lower-case digits is eight or more.

The hash is the sponge of FIPS 202 with a rate of 136 bytes, 32 bytes of output and the padding of
the submission to the contest, which starts with the byte 0x01. The step functions θ, ρ, π, χ and ι
are stated lane by lane on a state of five by five words; ρ and π are one function here, since π
only moves what ρ has rotated.
-/

namespace EthGateway

namespace Keccak

/-- Five by five lanes; the lane in column x and row y stands at x + 5 y. -/
abbrev State := Vector UInt64 25

namespace State

/-- The lane in a column and a row, both taken modulo five. -/
def lane (s : State) (x y : Nat) : UInt64 := s.get ⟨x % 5 + 5 * (y % 5), by omega⟩

/-- The state with the given lanes. -/
def ofLanes (f : (x y : Nat) → UInt64) : State := Vector.ofFn fun i => f (i.val % 5) (i.val / 5)

end State

/-- Turn the bits of a lane to the left. -/
def rotate (w : UInt64) (n : Nat) : UInt64 :=
  if n % 64 = 0 then w else w <<< UInt64.ofNat (n % 64) ||| w >>> UInt64.ofNat (64 - n % 64)

/-! ## The steps of a round -/

/-- The parity of a column. -/
def parity (s : State) (x : Nat) : UInt64 :=
  s.lane x 0 ^^^ s.lane x 1 ^^^ s.lane x 2 ^^^ s.lane x 3 ^^^ s.lane x 4

/-- θ: mix the parities of the neighbouring columns into every lane. -/
def theta (s : State) : State :=
  let mixed : Vector UInt64 5 :=
    Vector.ofFn fun x => parity s (x.val + 4) ^^^ rotate (parity s (x.val + 1)) 1
  .ofLanes fun x y => s.lane x y ^^^ mixed.get ⟨x % 5, by omega⟩

/-- How far ρ turns each lane, row by row. -/
def offsets : Vector Nat 25 :=
  #v[0, 1, 62, 28, 27,
     36, 44, 6, 55, 20,
     3, 10, 43, 25, 39,
     41, 45, 15, 21, 8,
     18, 2, 61, 56, 14]

/-- ρ and π: turn each lane by its offset and move it to its new place. -/
def rhoPi (s : State) : State :=
  .ofLanes fun x y =>
    rotate (s.lane (x + 3 * y) x) (offsets.get ⟨(x + 3 * y) % 5 + 5 * (x % 5), by omega⟩)

/-- χ: combine each lane with the next two of its row. -/
def chi (s : State) : State :=
  .ofLanes fun x y => s.lane x y ^^^ (~~~ s.lane (x + 1) y &&& s.lane (x + 2) y)

/-- ι: mix a round constant into the first lane. -/
def iota (constant : UInt64) (s : State) : State := s.set 0 (s.lane 0 0 ^^^ constant)

/-- The constants of the twenty-four rounds. -/
def constants : List UInt64 :=
  [0x0000000000000001, 0x0000000000008082, 0x800000000000808A, 0x8000000080008000,
   0x000000000000808B, 0x0000000080000001, 0x8000000080008081, 0x8000000000008009,
   0x000000000000008A, 0x0000000000000088, 0x0000000080008009, 0x000000008000000A,
   0x000000008000808B, 0x800000000000008B, 0x8000000000008089, 0x8000000000008003,
   0x8000000000008002, 0x8000000000000080, 0x000000000000800A, 0x800000008000000A,
   0x8000000080008081, 0x8000000000008080, 0x0000000080000001, 0x8000000080008008]

/-- The permutation. -/
def permute (s : State) : State :=
  constants.foldl (fun s constant => iota constant (chi (rhoPi (theta s)))) s

/-! ## The sponge -/

/-- The bytes that a block brings in. -/
def rate : Nat := 136

/-- The bytes that fill the last block: a one at the first bit, a one at the last. -/
def padding (length : Nat) : List UInt8 :=
  if rate - length % rate = 1 then [0x81]
  else 0x01 :: (List.replicate (rate - length % rate - 2) 0x00 ++ [0x80])

/-- The lane of eight bytes, the lowest first. -/
def laneOfBytes (bytes : List UInt8) : UInt64 :=
  bytes.foldr (fun b w => w <<< 8 ||| b.toUInt64) 0

/-- Mix a block into the state and permute it. -/
def absorb (s : State) (block : List UInt8) : State :=
  permute (Vector.ofFn fun i => s[i.val] ^^^ laneOfBytes ((block.drop (8 * i.val)).take 8))

/-- The state after a padded message. -/
def absorbAll (padded : List UInt8) : State :=
  (List.range (padded.length / rate)).foldl
    (fun s i => absorb s ((padded.drop (rate * i)).take rate)) (Vector.replicate 25 0)

/-- A byte of the state, the lowest of each lane first. -/
def byteAt (s : State) (k : Nat) : UInt8 :=
  (s.lane (k / 8 % 5) (k / 40) >>> UInt64.ofNat (8 * (k % 8))).toUInt8

/-- The Keccak-256 hash of a message: thirty-two bytes. -/
def hash (message : List UInt8) : List UInt8 :=
  (List.range 32).map (byteAt (absorbAll (message ++ padding message.length)))

theorem length_hash (message : List UInt8) : (hash message).length = 32 := by simp [hash]

end Keccak

/-! ## Checksums -/

namespace Address

/-- The number of bytes of an address. -/
def size : Nat := 20

/-- The two halves of each byte, the high one first. -/
def halves (bytes : List UInt8) : List Nat := bytes.flatMap fun b => [b.toNat / 16, b.toNat % 16]

/-- The hash of a text of ASCII characters. -/
def hashText (cs : List Char) : List UInt8 := Keccak.hash (cs.map fun c => UInt8.ofNat c.toNat)

/-- A digit in the case that the hash asks for. -/
def mark (c : Char) (half : Nat) : Char := if 8 ≤ half then c.toUpper else c

/-- The digits of an address, each in the case of its checksum. -/
def checksumDigits (bytes : List UInt8) : List Char :=
  List.zipWith mark (Text.Hex.encode bytes) (halves (hashText (Text.Hex.encode bytes)))

/-- The checksummed text of an address. -/
def checksum (bytes : List UInt8) : String := String.ofList ('0' :: 'x' :: checksumDigits bytes)

end Address

end EthGateway
