/-
The random numbers of the machine: the twister of 624 words, seeded from a number of any size.

A number below a bound is drawn from the high bits of the words, as many bits as the bound has,
until the bits are below the bound.  The words repeat with a period so long, and the bits of a
period are so evenly spread, that no run of 19938 draws misses; that number bounds the search.

Main statement: `Random.below_lt`, what is drawn is below the bound.
-/
namespace ChipEight

/-- The state of the random numbers. -/
structure Random where
  /-- The words of the twister. -/
  words : Vector UInt32 624
  /-- How many of the words have been used. -/
  used : Nat
  deriving DecidableEq

namespace Random

/-- The word at a place, counted around the end. -/
def wordAt (words : Vector UInt32 624) (k : Nat) : UInt32 :=
  words[Fin.ofNat 624 k]

/-- The words with one of them replaced, counted around the end. -/
def setWord (words : Vector UInt32 624) (k : Nat) (w : UInt32) : Vector UInt32 624 :=
  words.set (Fin.ofNat 624 k) w

/-! ## Seeding -/

/-- The words that a number consists of, the lowest first. -/
def seedWords (n : Nat) : List UInt32 :=
  if n < 4294967296 then [UInt32.ofNat n]
  else UInt32.ofNat n :: seedWords (n / 4294967296)

/-- The words that a single word fills. -/
def fill (seed : UInt32) : Vector UInt32 624 :=
  (List.range 623).foldl
    (fun mt k =>
      let last := wordAt mt k
      setWord mt (k + 1) ((1812433253 : UInt32) * (last ^^^ (last >>> 30)) + UInt32.ofNat (k + 1)))
    (setWord (Vector.replicate 624 0) 0 seed)

/-- Words under mixing, with the place of the word that is next. -/
structure Mixing where
  /-- The words. -/
  words : Vector UInt32 624
  /-- The place of the next word. -/
  place : Nat

/-- Put a word in its place and go on to the next.  On the way round the first word takes the
value of the last and is passed over. -/
def Mixing.put (m : Mixing) (w : UInt32) : Mixing :=
  let words := setWord m.words m.place w
  if m.place + 1 < 624 then ⟨words, m.place + 1⟩ else ⟨setWord words 0 (wordAt words 623), 1⟩

/-- The word in its place, mixed with the one before it. -/
def Mixing.mixed (m : Mixing) (factor : UInt32) : UInt32 :=
  let last := wordAt m.words (m.place - 1)
  wordAt m.words m.place ^^^ ((last ^^^ (last >>> 30)) * factor)

/-- The random numbers of a seed, of which the sign does not matter. -/
def ofSeed (seed : Int) : Random :=
  let key := (seedWords seed.natAbs).toArray
  -- Every word of the key enters at least once, and every word of the state is reached.
  let first := (List.range (max 624 key.size)).foldl
    (fun (m : Mixing) k =>
      let j := k % key.size
      m.put (m.mixed 1664525 + key.getD j 0 + UInt32.ofNat j))
    ⟨fill 19650218, 1⟩
  let second := (List.range 623).foldl
    (fun (m : Mixing) _ => m.put (m.mixed 1566083941 - UInt32.ofNat m.place)) first
  -- The highest bit keeps the state from being all zeros.
  ⟨setWord second.words 0 0x80000000, 624⟩

/-! ## Drawing -/

/-- The word that follows from two neighbours and the word 397 places on. -/
def twist (upper lower far : UInt32) : UInt32 :=
  let y := (upper &&& 0x80000000) ||| (lower &&& 0x7fffffff)
  far ^^^ (y >>> 1) ^^^ (if y &&& 1 = 0 then 0 else 0x9908b0df)

/-- The next 624 words. -/
def renew (words : Vector UInt32 624) : Vector UInt32 624 :=
  (List.range 624).foldl
    (fun mt k => setWord mt k (twist (wordAt mt k) (wordAt mt (k + 1)) (wordAt mt (k + 397))))
    words

/-- Spread the bits of a word. -/
def temper (w : UInt32) : UInt32 :=
  let w := w ^^^ (w >>> 11)
  let w := w ^^^ ((w <<< 7) &&& 0x9d2c5680)
  let w := w ^^^ ((w <<< 15) &&& 0xefc60000)
  w ^^^ (w >>> 18)

/-- Draw a word. -/
def next (r : Random) : UInt32 × Random :=
  if r.used < 624 then (temper (wordAt r.words r.used), { r with used := r.used + 1 })
  else
    let words := renew r.words
    (temper (wordAt words 0), ⟨words, 1⟩)

/-- The number of bits of a number. -/
def bitLength (n : Nat) : Nat :=
  if n = 0 then 0 else n.log2 + 1

/-- Draw a number below `bound`, in at most `draws` draws; zero if they all miss. -/
def belowWithin (bound : Nat) (r : Random) : Nat → Nat × Random
  | 0 => (0, r)
  | draws + 1 =>
    let (w, r) := r.next
    let k := w.toNat >>> (32 - bitLength bound)
    if k < bound then (k, r) else belowWithin bound r draws

/-- Draw a number below `bound`. -/
def below (bound : Nat) (r : Random) : Nat × Random :=
  belowWithin bound r 19938

theorem belowWithin_lt {bound : Nat} (h : 0 < bound) (r : Random) (draws : Nat) :
    (belowWithin bound r draws).1 < bound := by
  induction draws generalizing r with
  | zero => exact h
  | succ draws ih =>
    rw [belowWithin]
    split
    dsimp only
    split
    · assumption
    · exact ih _

theorem below_lt {bound : Nat} (h : 0 < bound) (r : Random) : (below bound r).1 < bound :=
  belowWithin_lt h r 19938

end Random

end ChipEight
