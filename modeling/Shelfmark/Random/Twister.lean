/-!
# Random numbers

The Mersenne twister with 624 words of 32 bits, and samples drawn with it.  One seed always gives one sample.

* `Twister.ofSeed`: the generator with a seed.
* `Twister.below`: a number below a bound.
* `sample`: some members of a list, drawn without replacement.
-/

namespace Shelfmark.Random

/-- The number of words of a generator. -/
def wordCount : Nat := 624

/-- A generator: its words and the number of words already used. -/
structure Twister where
  words : Array UInt32
  used : Nat
  deriving Inhabited

namespace Twister

/-- The word at a place. -/
def word (ws : Array UInt32) (i : Nat) : UInt32 := ws.getD i 0

/-! ## Seeds -/

/-- The words that a single number sets up. -/
def seedWords (seed : UInt32) : Array UInt32 :=
  (List.range (wordCount - 1)).foldl (fun ws i =>
    let last := word ws i
    ws.push ((1812433253 : UInt32) * (last ^^^ (last >>> 30)) + UInt32.ofNat (i + 1))) #[seed]

/-- The words of a generator while a key is mixed in, with the next places in the words and in the key. -/
structure Mixing where
  words : Array UInt32
  place : Nat
  keyPlace : Nat

/-- Moves on to the next word; behind the last word the first one is replaced by the last. -/
def Mixing.advance (ws : Array UInt32) (place keyPlace : Nat) : Mixing :=
  if place + 1 < wordCount then ⟨ws, place + 1, keyPlace⟩
  else ⟨ws.setIfInBounds 0 (word ws (wordCount - 1)), 1, keyPlace⟩

/-- Mixes one word of the key into one word of the generator. -/
def Mixing.mixKey (key : List UInt32) (m : Mixing) : Mixing :=
  let last := word m.words (m.place - 1)
  let mixed := (word m.words m.place ^^^ ((last ^^^ (last >>> 30)) * 1664525)) + key.getD m.keyPlace 0 +
    UInt32.ofNat m.keyPlace
  let keyPlace := if m.keyPlace + 1 < key.length then m.keyPlace + 1 else 0
  advance (m.words.setIfInBounds m.place mixed) m.place keyPlace

/-- Mixes the place of a word into it. -/
def Mixing.mixPlace (m : Mixing) : Mixing :=
  let last := word m.words (m.place - 1)
  let mixed := (word m.words m.place ^^^ ((last ^^^ (last >>> 30)) * 1566083941)) - UInt32.ofNat m.place
  advance (m.words.setIfInBounds m.place mixed) m.place m.keyPlace

/-- A function applied a number of times. -/
def times {α : Type} (f : α → α) : Nat → α → α
  | 0, a => a
  | n + 1, a => times f n (f a)

/-- The generator with a key of words. -/
def ofKey (key : List UInt32) : Twister :=
  let m := times (Mixing.mixKey key) (max wordCount key.length) ⟨seedWords 19650218, 1, 0⟩
  let m := times Mixing.mixPlace (wordCount - 1) m
  ⟨m.words.setIfInBounds 0 0x80000000, wordCount⟩

/-- The number of different words. -/
def wordBound : Nat := 4294967296

/-- The words of a natural number, the lowest first; `fuel` bounds their number. -/
def keyWords : Nat → Nat → List UInt32
  | 0, _ => []
  | fuel + 1, n =>
    if n < wordBound then [UInt32.ofNat n] else UInt32.ofNat (n % wordBound) :: keyWords fuel (n / wordBound)

/-- The generator with a seed; the sign of the seed does not matter. -/
def ofSeed (seed : Int) : Twister := ofKey (keyWords (seed.natAbs.log2 + 1) seed.natAbs)

/-! ## Numbers -/

/-- The next value of the word at a place. -/
def twistAt (ws : Array UInt32) (i : Nat) : Array UInt32 :=
  let y := (word ws i &&& 0x80000000) ||| (word ws ((i + 1) % wordCount) &&& 0x7fffffff)
  let odd : UInt32 := if y &&& 1 == 1 then 0x9908b0df else 0
  ws.setIfInBounds i (word ws ((i + 397) % wordCount) ^^^ (y >>> 1) ^^^ odd)

/-- New values for all words. -/
def twist (ws : Array UInt32) : Array UInt32 := (List.range wordCount).foldl twistAt ws

/-- The number that a word gives. -/
def temper (y : UInt32) : UInt32 :=
  let y := y ^^^ (y >>> 11)
  let y := y ^^^ ((y <<< 7) &&& 0x9d2c5680)
  let y := y ^^^ ((y <<< 15) &&& 0xefc60000)
  y ^^^ (y >>> 18)

/-- The next number of 32 bits. -/
def next (g : Twister) : UInt32 × Twister :=
  let g := if g.used < wordCount then g else ⟨twist g.words, 0⟩
  (temper (word g.words g.used), { g with used := g.used + 1 })

/-- The first number below a bound among the numbers with as many bits as the bound; `fuel` bounds the number of
attempts. -/
def belowWithin (bound bits : Nat) : Nat → Twister → Nat × Twister
  | 0, g => (0, g)
  | fuel + 1, g =>
    let (y, g) := g.next
    let n := y.toNat / Nat.pow 2 (32 - bits)
    if n < bound then (n, g) else belowWithin bound bits fuel g

/-- The most attempts to draw a number; each succeeds at least every second time. -/
def attempts : Nat := 4096

/-- A number below a positive bound of at most 32 bits. -/
def below (bound : Nat) (g : Twister) : Nat × Twister := belowWithin bound (bound.log2 + 1) attempts g

end Twister

/-! ## Samples -/

/-- Draws members out of a pool: the member drawn gives its place to the last one. -/
def drawFromPool {α : Type} : Nat → Array α → Twister → List α
  | 0, _, _ => []
  | k + 1, pool, g =>
    let (j, g) := g.below pool.size
    match pool[j]?, pool.back? with
    | some x, some last => x :: drawFromPool k (pool.setIfInBounds j last).pop g
    | _, _ => []

/-- A place that was not drawn yet; `fuel` bounds the number of attempts. -/
def freshPlace (size : Nat) (taken : List Nat) : Nat → Twister → Nat × Twister
  | 0, g => (0, g)
  | fuel + 1, g =>
    let (j, g) := g.below size
    if taken.contains j then freshPlace size taken fuel g else (j, g)

/-- Draws places below a size, none of them twice. -/
def drawPlaces (size : Nat) : Nat → List Nat → Twister → List Nat
  | 0, taken, _ => taken.reverse
  | k + 1, taken, g =>
    let (j, g) := freshPlace size taken Twister.attempts g
    drawPlaces size k (j :: taken) g

/-- The least power of four that is not below a number, from a given power on; `fuel` bounds the number of steps. -/
def powerOfFour (n : Nat) : Nat → Nat → Nat
  | 0, p => p
  | fuel + 1, p => if n ≤ p then p else powerOfFour n fuel (4 * p)

/-- Up to this size of a list a pool is cheaper than a record of the places drawn. -/
def poolCap (k : Nat) : Nat := 21 + if 5 < k then powerOfFour (3 * k) (3 * k) 1 else 0

/-- Some members of a list, drawn without replacement. -/
def sample {α : Type} (g : Twister) (xs : List α) (k : Nat) : List α :=
  let pool := xs.toArray
  if pool.size ≤ poolCap k then drawFromPool k pool g
  else (drawPlaces pool.size k [] g).filterMap fun j => pool[j]?

end Shelfmark.Random
