/-!
# Digest — Keccak

Keccak-256 with the padding that Ethereum uses: a permutation of 25 lanes of 64 bits, fed 136 bytes
at a time.
-/

namespace ContractSurvey.Keccak

/-- The constants that the last step of each round adds to the first lane. -/
def roundConstants : List UInt64 :=
  [0x0000000000000001, 0x0000000000008082, 0x800000000000808a, 0x8000000080008000,
   0x000000000000808b, 0x0000000080000001, 0x8000000080008081, 0x8000000000008009,
   0x000000000000008a, 0x0000000000000088, 0x0000000080008009, 0x000000008000000a,
   0x000000008000808b, 0x800000000000008b, 0x8000000000008089, 0x8000000000008003,
   0x8000000000008002, 0x8000000000000080, 0x000000000000800a, 0x800000008000000a,
   0x8000000080008081, 0x8000000000008080, 0x0000000080000001, 0x8000000080008008]

/-- How far each lane is rotated; lane `x + 5 * y` stands in column `x` and row `y`. -/
def rotations : List UInt64 :=
  [0, 1, 62, 28, 27, 36, 44, 6, 55, 20, 3, 10, 43, 25, 39, 41, 45, 15, 21, 8, 18, 2, 61, 56, 14]

/-- The 25 lanes. -/
abbrev State := List UInt64

def lane (s : State) (x y : Nat) : UInt64 := s.getD (x % 5 + 5 * (y % 5)) 0

/-- The state whose lane in each column and row is given. -/
def build (f : Nat → Nat → UInt64) : State :=
  (List.range 25).map fun i => f (i % 5) (i / 5)

def rotateLeft (w n : UInt64) : UInt64 :=
  if n = 0 then w else (w <<< n) ||| (w >>> (64 - n))

/-- Adds to each lane the parities of two neighbouring columns. -/
def theta (s : State) : State :=
  let parity := (List.range 5).map fun x =>
    lane s x 0 ^^^ lane s x 1 ^^^ lane s x 2 ^^^ lane s x 3 ^^^ lane s x 4
  let column (x : Nat) : UInt64 := parity.getD (x % 5) 0
  let change := (List.range 5).map fun x => column (x + 4) ^^^ rotateLeft (column (x + 1)) 1
  build fun x y => lane s x y ^^^ change.getD x 0

/-- Rotates the lanes. -/
def rho (s : State) : State := s.zipWith rotateLeft rotations

/-- Moves the lanes to their new places. -/
def pi (s : State) : State := build fun x y => lane s (x + 3 * y) x

/-- Combines each lane with the next two of its row. -/
def chi (s : State) : State :=
  build fun x y => lane s x y ^^^ (~~~lane s (x + 1) y &&& lane s (x + 2) y)

/-- One round. -/
def round (s : State) (constant : UInt64) : State :=
  match chi (pi (rho (theta s))) with
  | [] => []
  | first :: rest => (first ^^^ constant) :: rest

def permute (s : State) : State := roundConstants.foldl round s

/-- The number of bytes taken in before each permutation. -/
def rate : Nat := 136

/-- The message closed by a one bit at each end of the padding. -/
def pad (bytes : List UInt8) : List UInt8 :=
  let free := rate - bytes.length % rate
  bytes ++ if free = 1 then [0x81] else 0x01 :: List.replicate (free - 2) 0 ++ [0x80]

/-- Eight bytes at a time, least significant first. -/
def words : List UInt8 → List UInt64
  | a :: b :: c :: d :: e :: f :: g :: h :: rest =>
    ([h, g, f, e, d, c, b, a].foldl (fun w byte => w <<< 8 ||| byte.toUInt64) 0) :: words rest
  | _ => []

/-- The state after all whole blocks of the words, `n` being at least their number. -/
def absorb : Nat → State → List UInt64 → State
  | 0, s, _ => s
  | n + 1, s, ws =>
    if ws.length < 17 then s
    else
      let block := ws.take 17 ++ List.replicate 8 0
      absorb n (permute (s.zipWith (· ^^^ ·) block)) (ws.drop 17)

/-- The bytes of a lane, least significant first. -/
def littleEndian (w : UInt64) : List UInt8 :=
  (List.range 8).map fun i => (w >>> (8 * i).toUInt64).toUInt8

/-- The 32 bytes of the digest. -/
def digest (bytes : List UInt8) : List UInt8 :=
  let ws := words (pad bytes)
  ((absorb (ws.length / 17) (List.replicate 25 0) ws).take 4).flatMap littleEndian

end ContractSurvey.Keccak
