import NotaryNetwork.Random.Choice

/-!
# The bytes of a stream

A seed fixes a stream of bytes, block after block (`streamByte`). A stream that is aligned holds
back just the bytes between those that it has given and the end of the last block that it has made;
it is so from the start (`aligned_start`), and every request keeps it so. Therefore a request is
answered by the bytes from the place on that the stream has come to (`draw_of_aligned`), whatever
way the requests before it were cut.
-/

namespace NotaryNetwork.Random

/-! ## Answers -/

theorem length_block (seed : Bytes) (counter : Nat) : (block seed counter).length = 32 :=
  Digest.length_sha256 _

theorem length_blocks (seed : Bytes) (first count : Nat) :
    (blocks seed first count).length = 32 * count := by
  induction count generalizing first with
  | zero => rfl
  | succ count ih =>
    rw [blocks, List.length_append, length_block, ih]
    omega

/-- **A request for a number of bytes is answered by as many bytes.** -/
theorem SeededStream.exists_draw (n : Nat) (s : SeededStream) :
    ∃ bytes after, s.draw n = (.ok bytes, after) ∧ bytes.length = n := by
  have natural : ¬ (n : Int) < 0 := by omega
  unfold draw
  rw [if_neg natural]
  refine ⟨_, _, rfl, ?_⟩
  rw [Int.toNat_natCast, List.length_take, List.length_append, length_blocks]
  omega

/-- A stream has been chosen for the source. -/
def Choice.IsSeeded (source : Choice) : Prop := ∃ stream, source = .seeded stream

theorem Choice.IsSeeded.exists_draw {source : Choice} (seeded : source.IsSeeded) (n : Nat) :
    ∃ bytes after, Choice.draw n source = (.ok bytes, after) ∧ bytes.length = n ∧
      after.IsSeeded := by
  obtain ⟨stream, rfl⟩ := seeded
  obtain ⟨bytes, after, answer, length⟩ := stream.exists_draw n
  refine ⟨bytes, .seeded after, ?_, length, after, rfl⟩
  rw [draw, answer]

variable {seed : Bytes}

/-! ## Windows -/

/-- The byte of a stream at a place. -/
def streamByte (seed : Bytes) (place : Nat) : UInt8 :=
  (block seed (place / 32)).getD (place % 32) 0

/-- The bytes of a stream from a place on. -/
def window (seed : Bytes) (first count : Nat) : Bytes :=
  (List.range' first count).map (streamByte seed)

@[simp]
theorem length_window (seed : Bytes) (first count : Nat) :
    (window seed first count).length = count := by
  simp [window]

theorem window_append (seed : Bytes) (first m n : Nat) :
    window seed first m ++ window seed (first + m) n = window seed first (m + n) := by
  unfold window
  rw [← List.map_append, List.range'_append_1]

theorem take_window {first m n : Nat} (h : m ≤ n) :
    (window seed first n).take m = window seed first m := by
  obtain ⟨k, rfl⟩ := Nat.exists_eq_add_of_le h
  rw [← window_append, List.take_append_of_le_length (by simp)]
  exact List.take_of_length_le (by simp)

theorem drop_window {first m n : Nat} (h : m ≤ n) :
    (window seed first n).drop m = window seed (first + m) (n - m) := by
  obtain ⟨k, rfl⟩ := Nat.exists_eq_add_of_le h
  rw [← window_append, List.drop_append_of_le_length (by simp),
    List.drop_of_length_le (by simp), List.nil_append, Nat.add_sub_cancel_left]

theorem block_eq_window (seed : Bytes) (counter : Nat) :
    block seed counter = window seed (32 * counter) 32 := by
  refine List.ext_getElem (by simp [length_block]) fun i inside _ => ?_
  rw [length_block] at inside
  have number : (32 * counter + i) / 32 = counter := by omega
  have place : (32 * counter + i) % 32 = i := by omega
  have here : i < (block seed counter).length := by rwa [length_block]
  simp only [window, List.getElem_map, List.getElem_range', Nat.one_mul, streamByte, number, place]
  rw [List.getD_eq_getElem?_getD, List.getElem?_eq_getElem here, Option.getD_some]

theorem blocks_eq_window (seed : Bytes) (first count : Nat) :
    blocks seed first count = window seed (32 * first) (32 * count) := by
  induction count generalizing first with
  | zero => rfl
  | succ count ih =>
    have next : 32 * (first + 1) = 32 * first + 32 := by omega
    have size : 32 * (count + 1) = 32 + 32 * count := by omega
    rw [blocks, ih, block_eq_window, next, window_append, size]

/-! ## Aligned streams -/

namespace SeededStream

variable {s : SeededStream}

/-- What a stream holds back lies between the bytes it has given and the end of its last block. -/
structure Aligned (s : SeededStream) : Prop where
  given : s.bytesDrawn ≤ 32 * s.counter
  buffer : s.buffer = window s.seed s.bytesDrawn (32 * s.counter - s.bytesDrawn)
  /-- No block is made before it is needed. -/
  needed : 32 * s.counter < s.bytesDrawn + 32

theorem aligned_start (seed : Seed) : (start seed).Aligned :=
  ⟨Nat.le_refl 0, rfl, Nat.zero_lt_succ 31⟩

/-- **A stream answers by the bytes from the place that it has come to and goes on behind them.** -/
theorem draw_of_aligned (h : s.Aligned) (n : Nat) :
    ∃ after : SeededStream, s.draw n = (.ok (window s.seed s.bytesDrawn n), after) ∧
      after.Aligned ∧ after.seed = s.seed ∧ after.bytesDrawn = s.bytesDrawn + n := by
  obtain ⟨given, buffer, needed⟩ := h
  have natural : ¬ (n : Int) < 0 := by omega
  have held : s.buffer.length = 32 * s.counter - s.bytesDrawn := by rw [buffer, length_window]
  obtain ⟨count, made⟩ : ∃ count, (n - (32 * s.counter - s.bytesDrawn) + 31) / 32 = count :=
    ⟨_, rfl⟩
  have enough : n ≤ 32 * (s.counter + count) - s.bytesDrawn := by omega
  -- What was held back and the new blocks together are one window.
  have bytes : s.buffer ++ blocks s.seed s.counter count =
      window s.seed s.bytesDrawn (32 * (s.counter + count) - s.bytesDrawn) := by
    have place : 32 * s.counter = s.bytesDrawn + (32 * s.counter - s.bytesDrawn) := by omega
    have size : 32 * (s.counter + count) - s.bytesDrawn =
        32 * s.counter - s.bytesDrawn + 32 * count := by omega
    rw [size, ← window_append, ← place, buffer, blocks_eq_window]
  refine ⟨⟨s.seed, s.counter + count,
    window s.seed (s.bytesDrawn + n) (32 * (s.counter + count) - s.bytesDrawn - n),
    s.bytesDrawn + n⟩, ?_, ⟨?_, ?_, ?_⟩, rfl, rfl⟩
  · unfold draw
    simp only [if_neg natural, Int.toNat_natCast, held, made, bytes, take_window enough,
      drop_window enough]
  · show s.bytesDrawn + n ≤ 32 * (s.counter + count)
    omega
  · rw [Nat.sub_sub]
  · show 32 * (s.counter + count) < s.bytesDrawn + n + 32
    omega

end SeededStream

end NotaryNetwork.Random
