import TagTemplate.Proofs.Comparison
import TagTemplate.Render

/-! Output into a sink that has room for a number of characters only. As long as all of it fits, a
run cannot tell this sink from one that takes everything; the first text that does not fit stops the
run, and what was written by then is the beginning of what would have been written. -/

namespace TagTemplate

namespace Sink

/-- The first characters of a text. -/
def firstChars (n : Nat) (s : String) : String := String.ofList (s.toList.take n)

/-- A sink with so much room in all, after the text has gone into it. -/
def filled (room : Nat) (s : String) : Sink := ⟨s, some (room - s.length)⟩

theorem firstChars_append_of_le {n : Nat} {s : String} (t : String) (h : n ≤ s.length) :
    firstChars n (s ++ t) = firstChars n s := by
  unfold firstChars
  rw [String.toList_append, List.take_append_of_le_length (by rwa [String.length_toList])]

theorem firstChars_append_of_ge {n : Nat} {s : String} (t : String) (h : s.length ≤ n) :
    firstChars n (s ++ t) = s ++ firstChars (n - s.length) t := by
  unfold firstChars
  rw [String.toList_append, List.take_append, List.take_of_length_le (by rwa [String.length_toList]),
    String.length_toList, String.ofList_append, String.ofList_toList]

/-- A text goes in whole, or the sink takes what fits and is full. -/
theorem write_filled {room : Nat} {written : String} (h : written.length ≤ room) (s : String) :
    (filled room written).write s =
      if (written ++ s).length ≤ room then (true, filled room (written ++ s))
      else (false, ⟨firstChars room (written ++ s), some 0⟩) := by
  unfold write filled
  dsimp only
  by_cases hfits : s.length ≤ room - written.length
  · rw [if_pos hfits, if_pos (by rw [String.length_append]; omega), String.length_append,
      Nat.sub_add_eq]
  · rw [if_neg hfits, if_neg (by rw [String.length_append]; omega), firstChars_append_of_ge s h]
    rfl

end Sink

/-! ## Two machines -/

/-- A machine whose sink takes everything, and the same machine with little room, where all of the
output has fitted so far. -/
structure Fitting (room : Nat) (m n : Machine) : Prop where
  unbounded : m.sink.room = none
  fits : m.sink.written.length ≤ room
  sink : n.sink = .filled room m.sink.written
  context : n.context = m.context
  iterations : n.iterations = m.iterations

theorem Fitting.eq_with {room : Nat} {m n : Machine} (h : Fitting room m n)
    (hbindings : n.bindings = m.bindings) :
    n = { m with sink := .filled room m.sink.written } ∧
      m = { n with sink := ⟨n.sink.written, none⟩ } := by
  obtain ⟨hnone, -, hsink, hcontext, hcount⟩ := h
  obtain ⟨⟨written, free⟩, context, bindings, count⟩ := m
  obtain ⟨sink, context', bindings', count'⟩ := n
  cases hnone; cases hsink; cases hcontext; cases hbindings; cases hcount
  exact ⟨rfl, rfl⟩

/-- The second machine has stopped with a full sink, and the first one has written more. -/
structure Overrun (room : Nat) (m : Machine) (h : Halt) (n : Machine) : Prop where
  unbounded : m.sink.room = none
  longer : room < m.sink.written.length
  halt : h = .fault .outputFull
  written : n.sink.written = Sink.firstChars room m.sink.written

/-- A run into a sink that takes everything beside the same run into one with little room. -/
def filling (room : Nat) : Comparison Sink Sink where
  same := Fitting room
  alike := Eq
  ahead := Overrun room
  contexts c d := d = c
  calls _ := True
  hidden := Context.hidden_eq
  same_contexts h := h.context
  same_with h _ _ hcd _ _ := ⟨h.unbounded, h.fits, h.sink, hcd, h.iterations⟩
  ahead_with h _ _ _ := ⟨h.unbounded, h.longer, h.halt, h.written⟩
  alike_refl _ := rfl
  write s := by
    constructor
    · intro m n h
      have hwrite : Exec.write s m = .ok () { m with sink := ⟨m.sink.written ++ s, none⟩ } :=
        Exec.write_of_true (Sink.write_unbounded h.unbounded s)
      have hfilled := Sink.write_filled h.fits s
      rw [← h.sink] at hfilled
      rw [hwrite]
      by_cases hfits : (m.sink.written ++ s).length ≤ room
      · rw [if_pos hfits] at hfilled
        rw [Exec.write_of_true hfilled]
        exact .ok ⟨rfl, hfits, rfl, h.context, h.iterations⟩
      · rw [if_neg hfits] at hfilled
        rw [Exec.write_of_false hfilled]
        exact .stopped ⟨rfl, Nat.lt_of_not_le hfits, rfl, rfl⟩
    · intro e n m h
      have hwrite : Exec.write s m = .ok () { m with sink := ⟨m.sink.written ++ s, none⟩ } :=
        Exec.write_of_true (Sink.write_unbounded h.unbounded s)
      refine (Ends.of_ok hwrite).2 ⟨rfl, ?_, h.halt, ?_⟩
      · exact Nat.lt_of_lt_of_le h.longer (by rw [String.length_append]; omega)
      · exact h.written.trans (Sink.firstChars_append_of_le s (Nat.le_of_lt h.longer)).symm
  count := Exec.runs_count
    (fun h => ⟨h.unbounded, h.fits, h.sink, h.context, congrArg Nat.succ h.iterations⟩)
    (fun h => h.iterations) (fun h => by rw [h.context]) (fun _ => rfl)
    fun h => ⟨h.unbounded, h.longer, h.halt, h.written⟩

/-! ## Two visits -/

/-- With little room a visit does the same while the output fits, and is full where it does not. -/
theorem visits_filling (context : Context) (room : Nat) (t : Template) (more : Nat) :
    let v := t.visit more (Machine.start Sink.unbounded context)
    let w := t.visit more (Machine.start (Sink.bounded room) context)
    (v.machine.sink.written.length ≤ room ∧
        w = ⟨v.halt, { v.machine with sink := .filled room v.machine.sink.written }⟩ ∧
        v = ⟨w.halt, { w.machine with sink := ⟨w.machine.sink.written, none⟩ }⟩) ∨
      (room < v.machine.sink.written.length ∧ w.halt = some (.fault .outputFull) ∧
        w.machine.sink.written = Sink.firstChars room v.machine.sink.written) := by
  intro v w
  have hstart : Fitting room (Machine.start Sink.unbounded context)
      (Machine.start (Sink.bounded room) context) := ⟨rfl, Nat.zero_le _, rfl, rfl, rfl⟩
  rcases (filling room).visits_self hstart rfl (fun _ _ => trivial) more with
    ⟨hsame, hbound, hbound', hhalt⟩ | ⟨e, he, hover⟩
  · obtain ⟨hw, hv⟩ := hsame.eq_with (hbound'.trans hbound.symm)
    have hhalts : w.halt = v.halt := eq_of_rel_eq hhalt
    refine .inl ⟨hsame.fits, ?_, ?_⟩
    · show Visit.mk w.halt w.machine = _
      rw [hhalts, hw]
    · show Visit.mk v.halt v.machine = _
      rw [hhalts, hv]
  · exact .inr ⟨hover.longer, he.trans (congrArg some hover.halt), hover.written⟩

/-- Little room in the sink only stops a run. If the run into a sink that takes everything ends,
then the run into a sink with some room ends as well. It does the same where all of the output fits;
where it does not, the run fails for its output, and exactly the characters that fit were written.
And a run that does not fail for its output is the run into the sink that takes everything. -/
theorem room_only_stops (context : Context) (room : Nat) (t : Template) :
    let free := Machine.start Sink.unbounded context
    let bounded := Machine.start (Sink.bounded room) context
    (∀ v, t.EndsAs free v →
      (v.machine.sink.written.length ≤ room → t.EndsAs bounded
        ⟨v.halt, { v.machine with sink := .filled room v.machine.sink.written }⟩) ∧
      (room < v.machine.sink.written.length →
        ∃ w, t.EndsAs bounded w ∧ w.halt = some (.fault .outputFull) ∧
          w.machine.sink.written = Sink.firstChars room v.machine.sink.written)) ∧
    ∀ w, t.EndsAs bounded w → w.halt ≠ some (.fault .outputFull) →
      t.EndsAs free ⟨w.halt, { w.machine with sink := ⟨w.machine.sink.written, none⟩ }⟩ := by
  intro free bounded
  constructor
  · intro v hv
    obtain ⟨hends, more, rfl⟩ := Template.endsAs_iff.1 hv
    rcases visits_filling context room t more with ⟨hfits, hw, -⟩ | ⟨hlonger, hhalt, hwritten⟩
    · refine ⟨fun _ => Template.endsAs_iff.2 ⟨hends, more, hw⟩, fun hlonger => ?_⟩
      exact absurd hfits (Nat.not_le_of_lt hlonger)
    · refine ⟨fun hfits => absurd hfits (Nat.not_le_of_lt hlonger), fun _ => ?_⟩
      refine ⟨_, Template.endsAs_iff.2 ⟨?_, more, rfl⟩, hhalt, hwritten⟩
      rw [hhalt]
      exact nofun
  · intro w hw hhalt
    obtain ⟨hends, more, rfl⟩ := Template.endsAs_iff.1 hw
    rcases visits_filling context room t more with ⟨-, -, hv⟩ | ⟨-, hfull, -⟩
    · exact Template.endsAs_iff.2 ⟨hends, more, hv⟩
    · exact absurd hfull hhalt

end TagTemplate
