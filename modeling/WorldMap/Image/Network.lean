import WorldMap.Image.Color
/-!
# Finding the colors of a palette

A network is a row of 256 neurons, each of which is a color. It is shown the pixels of an image one
after the other. The neuron that wins a pixel moves towards it, and its neighbours in the row do so the
less the further away they are. Neurons that win often are handicapped, so that all of them find work.
The steps and the reach of a move shrink as time goes by, and where the neurons end up is the palette.

All numbers are of double precision.
-/

namespace WorldMap

def neuronCount : Nat := 256

structure Shade where
  r : Float
  g : Float
  b : Float
  a : Float

namespace Shade

def ofColor (c : Color) : Shade := ⟨c.r.toFloat, c.g.toFloat, c.b.toFloat, c.a.toFloat⟩

/-- The way from `s` to `t`, of which the part `alpha` is gone. -/
def approach (s t : Shade) (alpha : Float) : Shade where
  r := s.r - alpha * (s.r - t.r)
  g := s.g - alpha * (s.g - t.g)
  b := s.b - alpha * (s.b - t.b)
  a := s.a - alpha * (s.a - t.a)

def toByte (x : Float) : UInt8 := x.round.toUInt8

def toColor (s : Shade) : Color := ⟨toByte s.r, toByte s.g, toByte s.b, toByte s.a⟩

end Shade

/-- The neurons, how often each has won, and its handicap for that. -/
structure Network where
  neurons : Array Shade
  wins : FloatArray
  handicaps : FloatArray

namespace Network

def winShare : Float := 1 / 1024

/-- Neuron `i` is gray at first. The darkest sixteen are more or less transparent. -/
def start : Network where
  neurons := Array.ofFn fun i : Fin neuronCount =>
    let gray := i.val.toFloat
    ⟨gray, gray, gray, if i.val < 16 then gray * 16 else 255⟩
  wins := ⟨Array.replicate neuronCount (1 / 256)⟩
  handicaps := ⟨Array.replicate neuronCount 0⟩

/-- The nearest neuron so far, and the winner so far, whose distance counts less its handicap. -/
structure Contest where
  nearest : Nat
  distance : Float
  winner : Nat
  score : Float

def Contest.start : Contest := ⟨0, Float.ofBits 0x7FEFFFFFFFFFFFFF, 0, Float.ofBits 0x7FEFFFFFFFFFFFFF⟩

/-- Neuron `i` takes part in the contest for a pixel. It is out if it is too far away by two of its
channels. -/
def Contest.enter (c : Contest) (i : Nat) (neuron pixel : Shade) (handicap : Float) : Contest :=
  let first := (neuron.b - pixel.b).abs + (neuron.r - pixel.r).abs
  if first < c.distance || first < c.score + handicap then
    let distance := first + (neuron.g - pixel.g).abs + (neuron.a - pixel.a).abs
    let c := if distance < c.distance then { c with nearest := i, distance } else c
    let score := distance - handicap
    if score < c.score then { c with winner := i, score } else c
  else c

/-- The neuron that wins a pixel. All wins fade, and the nearest neuron has won once more. -/
def compete (n : Network) (pixel : Shade) : Nat × Network := Id.run do
  let ⟨neurons, wins, handicaps⟩ := n
  let mut wins := wins
  let mut handicaps := handicaps
  let mut contest := Contest.start
  for i in [0:neuronCount] do
    contest := contest.enter i (neurons.getD i ⟨0, 0, 0, 0⟩) pixel (handicaps.get! i)
    let left := wins.get! i - winShare * wins.get! i
    wins := wins.set! i left
    handicaps := handicaps.set! i (handicaps.get! i + left)
  let nearest := contest.nearest
  wins := wins.set! nearest (wins.get! nearest + winShare)
  handicaps := handicaps.set! nearest (handicaps.get! nearest - 1)
  return (contest.winner, ⟨neurons, wins, handicaps⟩)

def move (n : Network) (i : Nat) (pixel : Shade) (alpha : Float) : Network :=
  { n with neurons := n.neurons.modify i fun s => s.approach pixel alpha }

/-- The neurons less than `reach` away from the winner move, those next to it first. -/
def moveNeighbours (n : Network) (winner reach : Nat) (pixel : Shade) (alpha : Float) : Network :=
  let square := reach.toFloat * reach.toFloat
  let low := winner - reach
  let high := min (winner + reach) neuronCount
  (List.range reach).foldl (fun n q =>
    let part := alpha * (square - q.toFloat * q.toFloat) / square
    let n := if winner + 1 + q < high then n.move (winner + 1 + q) pixel part else n
    if low + 1 + q < winner then n.move (winner - 1 - q) pixel part else n) n

/-- How far and how strongly a win moves neurons, in parts of 64 and of 1024. -/
structure Pace where
  alpha : Nat
  radius : Nat

namespace Pace

def start : Pace := ⟨1024, 2048⟩

def slower (p : Pace) : Pace := ⟨p.alpha - p.alpha / 30, p.radius - p.radius / 30⟩

def reach (p : Pace) : Nat := if p.radius / 64 ≤ 1 then 0 else p.radius / 64

end Pace

/-- The way from one pixel to the next: the first of four prime numbers that does not divide the number
of pixels, so that every pixel comes up. -/
def stride (count : Nat) : Nat := ([499, 491, 478, 503].find? fun p => count % p ≠ 0).getD 503

def learn (n : Network) (pace : Pace) (pixel : Shade) : Network :=
  let (winner, n) := n.compete pixel
  let alpha := pace.alpha.toFloat / 1024
  let n := n.move winner pixel alpha
  if pace.reach = 0 then n else n.moveNeighbours winner pace.reach pixel alpha

def trained (cells : Array Color) : Network :=
  let count := cells.size
  let round := max 1 (count / 128)
  let step := stride count
  let (network, _) := (List.range count).foldl (fun (state : Network × Pace) i =>
    let network := state.1.learn state.2 (Shade.ofColor (cells.getD (i * step % count) default))
    (network, if (i + 1) % round = 0 then state.2.slower else state.2)) (start, Pace.start)
  network

/-- The colors of the neurons in the order of their green, and for each green the place where a search
begins. -/
structure Table where
  colors : Array Color
  begins : Array Nat
  deriving Inhabited

def leastGreen (colors : Array Color) (i : Nat) : Nat :=
  (List.range' (i + 1) (colors.size - (i + 1))).foldl (fun best j =>
    if (colors.getD j default).g < (colors.getD best default).g then j else best) i

def sortGreen (colors : Array Color) : Array Color :=
  (List.range colors.size).foldl (fun colors i => colors.swapIfInBounds i (leastGreen colors i)) colors

/-- Where a search for a green begins: in the middle of the colors that have it, at the next greater
green if there are none, and at the last color if there is no greater green. -/
def beginAt (colors : Array Color) (green : Nat) : Nat :=
  let last := colors.size - 1
  let first := (colors.findIdx? fun c => green ≤ c.g.toNat).getD last
  let next := (colors.findIdx? fun c => green < c.g.toNat)
  if (colors.getD first default).g.toNat = green then (first + next.getD last) / 2 else first

def table (cells : Array Color) : Table :=
  let colors := sortGreen ((trained cells).neurons.map Shade.toColor)
  ⟨colors, Array.ofFn fun green : Fin 256 => beginAt colors green⟩

namespace Table

def squareDistance (a b : UInt8) : Nat :=
  let way := ((a.toNat : Int) - b.toNat).natAbs
  way * way

/-- The nearest color so far and its distance. A search goes on as long as green alone is no further
away than that. -/
structure Search where
  best : Nat
  distance : Nat
  isOver : Bool

def Search.look (s : Search) (t : Table) (c : Color) (i : Nat) : Search :=
  if s.isOver then s
  else
    let d := t.colors.getD i default
    let green := squareDistance d.g c.g
    if s.distance < green then { s with isOver := true }
    else
      let distance := green + squareDistance d.r c.r + squareDistance d.b c.b + squareDistance d.a c.a
      if distance < s.distance then { s with best := i, distance } else s

/-- The number of a color that is near: the search goes up from where it begins, and then down. -/
def nearest (t : Table) (c : Color) : Nat :=
  let first := t.begins.getD c.g.toNat 0
  let up : Search := (List.range' first (t.colors.size - first)).foldl (fun s i => s.look t c i)
    ⟨first, 2147483647, false⟩
  let down : Search := (List.range first).reverse.foldl (fun s i => s.look t c i)
    { up with isOver := false }
  down.best

end Table

end Network

end WorldMap
