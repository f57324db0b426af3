/-! Random draws. `Draws` is an endless stream of words with the number already drawn; a range is hit by scaling a
    word and rejecting the words that would favour some values. Seeded streams come from the ChaCha cipher with
    eight rounds. -/

namespace GridFlight

structure Draws where
  word : Nat → UInt32
  drawn : Nat

namespace Draws

def next32 (d : Draws) : UInt32 × Draws := (d.word d.drawn, { d with drawn := d.drawn + 1 })

/-- Two words, the low one first. -/
def next64 (d : Draws) : UInt64 × Draws :=
  let value := (d.word d.drawn).toNat + (d.word (d.drawn + 1)).toNat * Nat.pow 2 32
  (UInt64.ofNat value, { d with drawn := d.drawn + 2 })

/-- These words for ever. -/
def cycle (words : Array UInt32) : Draws := ⟨fun i => words.getD (i % words.size) 0, 0⟩

/-! ### Ranges -/

/-- The largest low half of a product with `range` that is not rejected. -/
def zone (width range : Nat) : Nat := range * Nat.pow 2 (width - 1 - range.log2) - 1

/-- Scales words of `width` bits to `[0, range)`, rejecting at most `fuel` of them. -/
def below (width range : Nat) (next : Draws → Nat × Draws) : Nat → Draws → Nat × Draws
  | 0, d => ((next d).1 * range / Nat.pow 2 width, (next d).2)
  | fuel + 1, d =>
    let (v, rest) := next d
    let product := v * range
    if product % Nat.pow 2 width ≤ zone width range then (product / Nat.pow 2 width, rest)
    else below width range next fuel rest

theorem below_lt {width range : Nat} {next : Draws → Nat × Draws} (hr : 0 < range)
    (hn : ∀ d, (next d).1 < Nat.pow 2 width) (fuel : Nat) (d : Draws) :
    (below width range next fuel d).1 < range := by
  have scaled : ∀ d, (next d).1 * range / Nat.pow 2 width < range := fun d =>
    Nat.div_lt_of_lt_mul (Nat.mul_lt_mul_of_pos_right (hn d) hr)
  induction fuel generalizing d with
  | zero => exact scaled d
  | succ fuel ih =>
    simp only [below]
    split
    · exact scaled d
    · exact ih _

/-- No more words than this are rejected in a row. -/
def patience : Nat := 65536

/-- An integer of `[low, high)`. -/
def int32 (low high : Int32) (d : Draws) : Int32 × Draws :=
  let (k, d) := below 32 (high.toInt - low.toInt).toNat (fun d => (d.next32.1.toNat, d.next32.2)) patience d
  (Int32.ofInt (low.toInt + k), d)

def index (length : Nat) (d : Draws) : Nat × Draws :=
  below 64 length (fun d => (d.next64.1.toNat, d.next64.2)) patience d

theorem index_lt {length : Nat} (h : 0 < length) (d : Draws) : (index length d).1 < length :=
  below_lt h (fun d => d.next64.1.toNat_lt) _ d

end Draws

/-! ### Seeded streams -/

namespace ChaCha

/-- One column of the four by four state. -/
structure Column where
  a : UInt32
  b : UInt32
  c : UInt32
  d : UInt32

def rotate (x : UInt32) (n : UInt32) : UInt32 := (x <<< n) ||| (x >>> (32 - n))

def Column.mix (s : Column) : Column :=
  let a := s.a + s.b
  let d := rotate (s.d ^^^ a) 16
  let c := s.c + d
  let b := rotate (s.b ^^^ c) 12
  let a := a + b
  let d := rotate (d ^^^ a) 8
  let c := c + d
  let b := rotate (b ^^^ c) 7
  ⟨a, b, c, d⟩

def Column.add (s t : Column) : Column := ⟨s.a + t.a, s.b + t.b, s.c + t.c, s.d + t.d⟩

structure State where
  c0 : Column
  c1 : Column
  c2 : Column
  c3 : Column

namespace State

/-- The diagonals as columns. -/
def slant (s : State) : State :=
  ⟨⟨s.c0.a, s.c1.b, s.c2.c, s.c3.d⟩, ⟨s.c1.a, s.c2.b, s.c3.c, s.c0.d⟩,
    ⟨s.c2.a, s.c3.b, s.c0.c, s.c1.d⟩, ⟨s.c3.a, s.c0.b, s.c1.c, s.c2.d⟩⟩

/-- The columns whose diagonals these are. -/
def unslant (s : State) : State :=
  ⟨⟨s.c0.a, s.c3.b, s.c2.c, s.c1.d⟩, ⟨s.c1.a, s.c0.b, s.c3.c, s.c2.d⟩,
    ⟨s.c2.a, s.c1.b, s.c0.c, s.c3.d⟩, ⟨s.c3.a, s.c2.b, s.c1.c, s.c0.d⟩⟩

def mix (s : State) : State := ⟨s.c0.mix, s.c1.mix, s.c2.mix, s.c3.mix⟩

def doubleRound (s : State) : State := s.mix.slant.mix.unslant

def add (s t : State) : State := ⟨s.c0.add t.c0, s.c1.add t.c1, s.c2.add t.c2, s.c3.add t.c3⟩

/-- The word at a place, row by row. -/
def word (s : State) (place : Nat) : UInt32 :=
  let column := match place % 4 with
    | 0 => s.c0
    | 1 => s.c1
    | 2 => s.c2
    | _ => s.c3
  match place / 4 with
  | 0 => column.a
  | 1 => column.b
  | 2 => column.c
  | _ => column.d

end State

abbrev Key := List UInt32

def initial (key : Key) (counter : Nat) : State :=
  let k := fun i => key.getD i 0
  ⟨⟨0x61707865, k 0, k 4, UInt32.ofNat counter⟩, ⟨0x3320646e, k 1, k 5, UInt32.ofNat (counter / Nat.pow 2 32)⟩,
    ⟨0x79622d32, k 2, k 6, 0⟩, ⟨0x6b206574, k 3, k 7, 0⟩⟩

def block (key : Key) (counter : Nat) : State :=
  let s := initial key counter
  s.doubleRound.doubleRound.doubleRound.doubleRound.add s

def word (key : Key) (i : Nat) : UInt32 := (block key (i / 16)).word (i % 16)

/-- The next state and word of the generator that spreads a seed over a key. -/
def spread (s : UInt64) : UInt64 × UInt32 :=
  let s := s * 6364136223846793005 + 11634580027462260723
  let x := (((s >>> 18) ^^^ s) >>> 27).toUInt32
  let turn := (s >>> 59).toUInt32
  (s, (x >>> turn) ||| (x <<< ((32 - turn) % 32)))

def spreadKey : Nat → UInt64 → Key
  | 0, _ => []
  | n + 1, s => (spread s).2 :: spreadKey n (spread s).1

end ChaCha

namespace Draws

def ofSeed (seed : UInt64) : Draws := ⟨ChaCha.word (ChaCha.spreadKey 8 seed), 0⟩

/-- One of the independent streams of a seed. -/
def derive (seed stream : UInt64) : Draws := ofSeed ((seed * 0x517cc1b727220a95) ^^^ stream)

end Draws
end GridFlight
