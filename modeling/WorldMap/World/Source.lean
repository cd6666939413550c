import WorldMap.Attempt
import WorldMap.Geometry.Tile
/-!
# Data sources

A data source answers a volume with a sample, which nothing here looks into: samples go to the
layers, which know what they mean. Before the tiles of a render are computed the source may get
itself ready.
-/

namespace WorldMap

inductive SourceError
  | outOfBounds (volume : Volume)
  | query (message : String)
  | unavailable (message : String)
  deriving DecidableEq, Repr

namespace SourceError

def text : SourceError → String
  | outOfBounds v => s!"volume {v.text} is outside the data source bounds"
  | query m => s!"data source query failed: {m}"
  | unavailable m => s!"data source unavailable: {m}"

end SourceError

/-- A supplier of samples. `prepare` is told how many times it has been called, this call
included; `query` depends on nothing but the volume. -/
structure Source (σ : Type) where
  name : String
  prepare : Nat → Attempt SourceError Unit
  query : Volume → Attempt SourceError σ

/-- Work for which a source may be asked: what it comes to, and the volumes that it asked for. -/
structure Inquiry (α : Type) where
  result : α
  asked : List Volume

namespace Source

variable {σ : Type}

/-- To ask the source is to leave a note of the volume. -/
def ask (s : Source σ) (v : Volume) : Inquiry (Attempt SourceError σ) := ⟨s.query v, [v]⟩

end Source

end WorldMap
