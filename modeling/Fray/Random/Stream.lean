/-! A stream of pseudorandom words: the ChaCha block function with twelve rounds over a key that is grown from a
    seed of 64 bits. -/

namespace Fray
namespace Random

/-- The sixteen words of a block, or of the state that it is made from. -/
abbrev Block := Vector UInt32 16

def rotateLeft (x n : UInt32) : UInt32 := (x <<< n) ||| (x >>> (32 - n))

/-- Mixes the words at four places. -/
def quarter (s : Block) (a b c d : Fin 16) : Block :=
  let s := s.set a (s[a] + s[b])
  let s := s.set d (rotateLeft (s[d] ^^^ s[a]) 16)
  let s := s.set c (s[c] + s[d])
  let s := s.set b (rotateLeft (s[b] ^^^ s[c]) 12)
  let s := s.set a (s[a] + s[b])
  let s := s.set d (rotateLeft (s[d] ^^^ s[a]) 8)
  let s := s.set c (s[c] + s[d])
  s.set b (rotateLeft (s[b] ^^^ s[c]) 7)

/-- Two rounds: the columns, then the diagonals. -/
def doubleRound (s : Block) : Block :=
  let s := quarter s 0 4 8 12
  let s := quarter s 1 5 9 13
  let s := quarter s 2 6 10 14
  let s := quarter s 3 7 11 15
  let s := quarter s 0 5 10 15
  let s := quarter s 1 6 11 12
  let s := quarter s 2 7 8 13
  quarter s 3 4 9 14

def rounds : Nat → Block → Block
  | 0, s => s
  | n + 1, s => rounds n (doubleRound s)

abbrev Key := Vector UInt32 8

/-- The state of a block: four constant words, the key, the number of the block, and a nonce of zero. -/
def start (k : Key) (block : UInt64) : Block :=
  #v[0x61707865, 0x3320646e, 0x79622d32, 0x6b206574, k[0], k[1], k[2], k[3], k[4], k[5], k[6], k[7],
    block.toUInt32, (block >>> 32).toUInt32, 0, 0]

def block (k : Key) (n : UInt64) : Block :=
  let s := start k n
  s.zipWith (· + ·) (rounds 6 s)

/-! ### The key of a seed -/

/-- One step of the generator that the key is drawn from. -/
def grow (state : UInt64) : UInt64 := state * 6364136223846793005 + 11634580027462260723

/-- The word of a state of that generator: some high bits, rotated by the highest. -/
def permuted (state : UInt64) : UInt32 :=
  let x := (((state >>> 18) ^^^ state) >>> 27).toUInt32
  let n := (state >>> 59).toUInt32
  (x >>> n) ||| (x <<< (32 - n))

def keyWords : Nat → UInt64 → List UInt32
  | 0, _ => []
  | n + 1, state => permuted (grow state) :: keyWords n (grow state)

theorem length_keyWords (n : Nat) (state : UInt64) : (keyWords n state).length = n := by
  induction n generalizing state with
  | zero => rfl
  | succ n ih => simp [keyWords, ih]

def keyOf (seed : UInt64) : Key := ⟨(keyWords 8 seed).toArray, by simp [length_keyWords]⟩

end Random

/-- A source of random words: the stream of a key, eight words of 64 bits a block, read in order. -/
structure Random where
  key : Random.Key
  /-- How many words were drawn. -/
  drawn : Nat := 0
  /-- The block that is being read. -/
  words : Random.Block

namespace Random

def ofSeed (seed : UInt64) : Random := ⟨keyOf seed, 0, block (keyOf seed) 0⟩

/-- The next word, the lower half first. -/
def next (g : Random) : UInt64 × Random :=
  let i : Fin 8 := ⟨g.drawn % 8, Nat.mod_lt _ (by decide)⟩
  let low := g.words[2 * i.val]
  let high := g.words[2 * i.val + 1]
  let drawn := g.drawn + 1
  ((high.toUInt64 <<< 32) ||| low.toUInt64,
    { g with drawn, words := if drawn % 8 = 0 then block g.key (drawn / 8).toUInt64 else g.words })

/-- True with the given probability, which is below one. -/
def chance (p : Float) (g : Random) : Bool × Random :=
  let (x, g) := g.next
  (x < (p * 18446744073709551616.0).toUInt64, g)

/-- A number from `low` up to but not including `high`, in steps of a part in 2^52 of the distance. -/
def between (low high : Float) (g : Random) : Float × Random :=
  let (x, g) := g.next
  let unit := Float.ofBits ((x >>> 12) ||| 0x3ff0000000000000) - 1.0
  (unit * (high - low) + low, g)

end Random
end Fray
