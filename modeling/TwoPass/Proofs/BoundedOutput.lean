/-
Output into bounded room. An image goes out through a buffer that is passed on whenever it is full, a disassembly row by
row, and a listing in one piece. Wherever the room ends, be it inside a line, inside a block or just at the end, what
was taken is the front of the output, and the failure is reported.

- `Sink.written_writeAll`, `Sink.error_writeAll`: what a run of writes leaves behind, whatever the pieces
- `blocks_cons`, `flatten_blocks`: blocks are the text, cut
- `Buffered`: the buffer in front of a sink, with its error that stays
- `Buffered.writeLines_eq`: lines written through a buffer reach the sink in blocks
- `bounded_output`: each kind of output leaves its front, and fails exactly if there is more of it than room
-/
import Mathlib.Tactic
import TwoPass.Proofs.Images
import TwoPass.Sink

namespace TwoPass

/-! ## Runs of writes -/

namespace Sink

@[simp] theorem written_ofLimit (limit : Nat) : (ofLimit limit).written = [] := rfl

theorem written_write (s : Sink) (t : Text) : (s.write t).1.written = s.written ++ t.take s.room := by
  simp [write, written]

theorem room_write (s : Sink) (t : Text) : (s.write t).1.room = s.room - t.length := rfl

theorem error_write (s : Sink) (t : Text) : (s.write t).2 = none ↔ t.length ≤ s.room := by
  simp [write]

theorem writeAll_cons_of_fits {s : Sink} {t : Text} (h : t.length ≤ s.room) (rest : List Text) :
    s.writeAll (t :: rest) = (s.write t).1.writeAll rest := by
  rw [writeAll, write, if_pos h]

theorem writeAll_cons_of_exceeds {s : Sink} {t : Text} (h : ¬ t.length ≤ s.room) (rest : List Text) :
    s.writeAll (t :: rest) = ((s.write t).1, some .limitReached) := by
  rw [writeAll, write, if_neg h]

/-- **What a run of writes leaves behind**: as much of all the pieces together as there was room for -/
theorem written_writeAll (s : Sink) (ts : List Text) :
    (s.writeAll ts).1.written = s.written ++ ts.flatten.take s.room := by
  induction ts generalizing s with
  | nil => simp [writeAll]
  | cons t rest ih =>
    rw [List.flatten_cons, List.take_append]
    by_cases h : t.length ≤ s.room
    · rw [writeAll_cons_of_fits h, ih, written_write, room_write, List.append_assoc]
    · rw [writeAll_cons_of_exceeds h, written_write, Nat.sub_eq_zero_of_le (by omega), List.take_zero, List.append_nil]

/-- a run of writes fails exactly if the pieces together are more than the room -/
theorem error_writeAll (s : Sink) (ts : List Text) : (s.writeAll ts).2 = none ↔ ts.flatten.length ≤ s.room := by
  induction ts generalizing s with
  | nil => simp [writeAll]
  | cons t rest ih =>
    rw [List.flatten_cons, List.length_append]
    by_cases h : t.length ≤ s.room
    · rw [writeAll_cons_of_fits h, ih, room_write]
      omega
    · rw [writeAll_cons_of_exceeds h]
      exact ⟨nofun, fun hle => absurd (Nat.le_of_add_right_le hle) h⟩

end Sink

/-! ## Blocks -/

@[simp] theorem blocks_nil (size : Nat) : blocks size [] = [] := by
  have hzero : (0 + size - 1) / size = 0 := by
    cases size with
    | zero => rfl
    | succ size => exact Nat.div_eq_of_lt (by omega)
  rw [blocks, List.length_nil, hzero]
  rfl

/-- the first block counts for one, whether it is full or not -/
theorem count_blocks {size n : Nat} (hsize : 0 < size) (hn : 0 < n) :
    (n + size - 1) / size = (n - size + size - 1) / size + 1 := by
  by_cases hle : size ≤ n
  · rw [← Nat.add_div_right _ hsize]
    congr 1
    omega
  · have hfirst : (n + size - 1) / size = 1 := Nat.div_eq_of_lt_le (by omega) (by omega)
    have hrest : (n - size + size - 1) / size = 0 := Nat.div_eq_of_lt (by omega)
    rw [hfirst, hrest]

/-- the first block, and the blocks of what is left -/
theorem blocks_cons {size : Nat} (hsize : 0 < size) {t : Text} (ht : t ≠ []) :
    blocks size t = t.take size :: blocks size (t.drop size) := by
  rw [blocks, count_blocks hsize (List.length_pos_iff.2 ht), List.range_succ_eq_map, List.map_cons, List.map_map,
    blocks, List.length_drop]
  refine congrArg₂ _ (by simp) (List.map_congr_left fun i _ => ?_)
  rw [Function.comp_apply, List.drop_drop, Nat.succ_mul, Nat.add_comm]

theorem blocks_of_length_le {size : Nat} {t : Text} (ht : t ≠ []) (h : t.length ≤ size) : blocks size t = [t] := by
  have hsize : 0 < size := (List.length_pos_iff.2 ht).trans_le h
  rw [blocks_cons hsize ht, List.take_of_length_le h, List.drop_eq_nil_of_le h, blocks_nil]

theorem blocks_append {size : Nat} (hsize : 0 < size) {block : Text} (h : block.length = size) (rest : Text) :
    blocks size (block ++ rest) = block :: blocks size rest := by
  have hne : block ++ rest ≠ [] := by
    rintro hnil
    rw [(List.append_eq_nil_iff.1 hnil).1] at h
    exact hsize.ne h
  rw [blocks_cons hsize hne, ← h, List.take_left, List.drop_left]

/-- blocks are the text, cut -/
theorem flatten_blocks {size : Nat} (hsize : 0 < size) (t : Text) : (blocks size t).flatten = t := by
  induction hn : t.length using Nat.strongRecOn generalizing t with
  | ind n ih =>
    by_cases ht : t = []
    · rw [ht, blocks_nil]
      rfl
    · have hlength : 0 < t.length := List.length_pos_iff.2 ht
      rw [blocks_cons hsize ht, List.flatten_cons,
        ih (t.drop size).length (by rw [List.length_drop]; omega) (t.drop size) rfl, List.take_append_drop]

/-! ## Output through a buffer -/

/-- a sink with a buffer in front of it: the bytes that wait, and the first error, which stays -/
structure Buffered where
  sink : Sink
  pending : Text
  error : Option SinkError
deriving DecidableEq, Repr

namespace Buffered

/-- an empty buffer in front of a sink -/
def ofSink (s : Sink) : Buffered := ⟨s, [], none⟩

/-- hand what waits to the sink, if there is anything and nothing has failed yet; what it does not take waits on -/
def flush (b : Buffered) : Buffered :=
  if b.error.isSome || b.pending.isEmpty then b
  else ⟨(b.sink.write b.pending).1, b.pending.drop b.sink.room, (b.sink.write b.pending).2⟩

/-- write into an empty buffer of a size; a text that is larger than the whole buffer goes past it -/
def start (size : Nat) (b : Buffered) (t : Text) : Buffered :=
  if b.error.isSome then b
  else if t.length ≤ size then { b with pending := t }
  else ⟨(b.sink.write t).1, [], (b.sink.write t).2⟩

/-- write into a buffer of a size: a text that does not fit first fills the buffer, which is then handed on -/
def write (size : Nat) (b : Buffered) (t : Text) : Buffered :=
  if b.error.isSome then b
  else if b.pending.length + t.length ≤ size then { b with pending := b.pending ++ t }
  else if b.pending.isEmpty then b.start size t
  else start size (flush { b with pending := b.pending ++ t.take (size - b.pending.length) })
    (t.drop (size - b.pending.length))

/-- write texts one after another, up to the first error, and hand on what waits at the end -/
def writeLines (size : Nat) (b : Buffered) : List Text → Sink × Option SinkError
  | [] => (b.flush.sink, b.flush.error)
  | t :: rest =>
    if (b.write size t).error.isSome then ((b.write size t).sink, (b.write size t).error)
    else (b.write size t).writeLines size rest

section
variable {size : Nat} {s : Sink} {pending t : Text}

theorem flush_of_fits (hne : pending ≠ []) (h : pending.length ≤ s.room) :
    flush ⟨s, pending, none⟩ = ⟨(s.write pending).1, [], none⟩ := by
  simp [flush, hne, (s.error_write pending).2 h, h]

theorem flush_of_exceeds (hne : pending ≠ []) (h : ¬ pending.length ≤ s.room) :
    flush ⟨s, pending, none⟩ = ⟨(s.write pending).1, pending.drop s.room, some .limitReached⟩ := by
  simp [flush, hne, Sink.write, h]

theorem write_of_fits (h : pending.length + t.length ≤ size) :
    write size ⟨s, pending, none⟩ t = ⟨s, pending ++ t, none⟩ := by
  simp [write, h]

/-- a text that no longer fits fills the buffer up and waits for the rest of it to have room -/
theorem write_of_exceeds (ht : t.length ≤ size) (h : size < pending.length + t.length) :
    write size ⟨s, pending, none⟩ t =
      start size (flush ⟨s, pending ++ t.take (size - pending.length), none⟩) (t.drop (size - pending.length)) := by
  have hne : pending ≠ [] := by
    rintro rfl
    rw [List.length_nil] at h
    omega
  simp [write, hne, Nat.not_le_of_lt h]

end

/-- **Lines written through a buffer reach the sink in blocks**, and the first block that fails is the last -/
theorem writeLines_eq {size : Nat} (hsize : 0 < size) (s : Sink) {pending : Text} (hpending : pending.length ≤ size)
    {lines : List Text} (hlines : ∀ t ∈ lines, t.length ≤ size) :
    writeLines size ⟨s, pending, none⟩ lines = s.writeAll (blocks size (pending ++ lines.flatten)) := by
  induction lines generalizing s pending with
  | nil =>
    by_cases hnil : pending = []
    · subst hnil
      rw [List.flatten_nil, List.append_nil, blocks_nil]
      rfl
    · rw [List.flatten_nil, List.append_nil, blocks_of_length_le hnil hpending, writeLines]
      by_cases hroom : pending.length ≤ s.room
      · rw [flush_of_fits hnil hroom, Sink.writeAll_cons_of_fits hroom]
        rfl
      · rw [flush_of_exceeds hnil hroom, Sink.writeAll_cons_of_exceeds hroom]
  | cons t rest ih =>
    obtain ⟨ht, hrest⟩ := List.forall_mem_cons.1 hlines
    rw [writeLines, List.flatten_cons, ← List.append_assoc]
    by_cases hfits : pending.length + t.length ≤ size
    · rw [write_of_fits hfits]
      exact ih s (by rwa [List.length_append]) hrest
    · -- the buffer is filled up to a block, and the rest of the text waits in its place
      have hexceeds := Nat.lt_of_not_le hfits
      have hblock : (pending ++ t.take (size - pending.length)).length = size := by
        rw [List.length_append, List.length_take]
        omega
      have hleft : (t.drop (size - pending.length)).length ≤ size := (List.drop_sublist _ _).length_le.trans ht
      have hsplit : pending ++ t ++ rest.flatten = (pending ++ t.take (size - pending.length)) ++
          (t.drop (size - pending.length) ++ rest.flatten) := by
        rw [List.append_assoc, List.append_assoc, ← List.append_assoc (t.take _), List.take_append_drop]
      rw [write_of_exceeds ht hexceeds, hsplit, blocks_append hsize hblock]
      generalize pending ++ t.take (size - pending.length) = block at hblock
      generalize t.drop (size - pending.length) = left at hleft
      have hne : block ≠ [] := by
        rintro rfl
        exact hsize.ne hblock
      by_cases hroom : block.length ≤ s.room
      · have hstart : start size ⟨(s.write block).1, [], none⟩ left = ⟨(s.write block).1, left, none⟩ := by
          simp [start, hleft]
        rw [flush_of_fits hne hroom, hstart, Sink.writeAll_cons_of_fits hroom]
        exact ih _ hleft hrest
      · rw [flush_of_exceeds hne hroom, Sink.writeAll_cons_of_exceeds hroom]
        rfl

end Buffered

/-- the blocks of an image are what a buffer makes of its lines -/
theorem writeLines_image (s : Sink) (words : List Word) :
    Buffered.writeLines imageBlock (.ofSink s) (words.map HexImage.wordLine) = s.writeAll (imageWrites words) := by
  have hlines : ∀ t ∈ words.map HexImage.wordLine, t.length ≤ imageBlock := by
    intro t ht
    obtain ⟨w, _, rfl⟩ := List.mem_map.1 ht
    rw [HexImage.wordLine, List.length_append, length_wordText]
    decide
  rw [Buffered.ofSink, Buffered.writeLines_eq (by decide) _ (Nat.zero_le _) hlines, List.nil_append, ← List.flatMap_def]
  rfl

/-! ## The front of an output -/

/-- what is left of an output in limited room: the front of it that there was room for, and an error exactly if there
was more -/
structure LeavesFront (limit : Nat) (output : Text) (result : Sink × Option SinkError) : Prop where
  written : result.1.written = output.take (min limit output.length)
  failed : result.2 = some .limitReached ↔ limit < output.length

theorem leavesFront_writeAll (limit : Nat) (ts : List Text) :
    LeavesFront limit ts.flatten ((Sink.ofLimit limit).writeAll ts) := by
  have herror := (Sink.ofLimit limit).error_writeAll ts
  constructor
  · rw [Sink.written_writeAll, Sink.written_ofLimit, List.nil_append, ← List.take_eq_take_min]
    rfl
  · rw [← Nat.not_le]
    refine Iff.trans ?_ (not_congr herror)
    cases ((Sink.ofLimit limit).writeAll ts).2 with
    | none => simp
    | some e =>
      cases e
      simp

/-- **Limited room leaves a clean front.** Whatever the limit: of an image, which goes out through a buffer in blocks,
of a disassembly, which goes out row by row, and of a listing, which goes out at once, the bytes taken are the first
that there is room for, and the output fails exactly if it has more bytes than that. -/
theorem bounded_output (limit : Nat) :
    (∀ words, Buffered.writeLines imageBlock (.ofSink (.ofLimit limit)) (words.map HexImage.wordLine) =
        (Sink.ofLimit limit).writeAll (imageWrites words) ∧
      LeavesFront limit (HexImage.write words) ((Sink.ofLimit limit).writeAll (imageWrites words))) ∧
    (∀ words, LeavesFront limit (disassemblyRows (disassemble words)).flatten
      ((Sink.ofLimit limit).writeAll (disassemblyWrites words))) ∧
    ∀ p : Program, LeavesFront limit p.listing ((Sink.ofLimit limit).writeAll (listingWrites p)) := by
  refine ⟨fun words => ⟨writeLines_image _ words, ?_⟩, fun words => leavesFront_writeAll limit _, fun p => ?_⟩
  · have hfront := leavesFront_writeAll limit (imageWrites words)
    rwa [imageWrites, flatten_blocks (by decide)] at hfront
  · have hfront := leavesFront_writeAll limit (listingWrites p)
    rwa [listingWrites, List.flatten_singleton] at hfront

end TwoPass
