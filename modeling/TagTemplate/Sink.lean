/-! Where output goes: anything that takes texts and says whether it could. The sink here collects
what is written and may have room for a number of characters only. -/

namespace TagTemplate

class Writer (σ : Type) where
  /-- Takes a text, or some part of it; says whether it was all. -/
  write : σ → String → Bool × σ

structure Sink where
  written : String
  /-- The number of characters that still fit, if there is a bound. -/
  room : Option Nat

namespace Sink

def unbounded : Sink := ⟨"", none⟩

def bounded (room : Nat) : Sink := ⟨"", some room⟩

/-- Writes a text, or as much of it as fits; says whether it was all. -/
def write (sink : Sink) (s : String) : Bool × Sink :=
  match sink.room with
  | none => (true, ⟨sink.written ++ s, none⟩)
  | some room =>
    if s.length ≤ room then (true, ⟨sink.written ++ s, some (room - s.length)⟩)
    else (false, ⟨sink.written ++ String.ofList (s.toList.take room), some 0⟩)

theorem write_unbounded {sink : Sink} (h : sink.room = none) (s : String) :
    sink.write s = (true, ⟨sink.written ++ s, none⟩) := by
  unfold write
  rw [h]

instance : Writer Sink := ⟨write⟩

/-- Takes what was written so far out of the sink. -/
def flush (sink : Sink) : String × Sink := (sink.written, ⟨"", sink.room⟩)

end Sink

end TagTemplate
