import Mathlib.Algebra.GroupWithZero.Nat
import NotaryNetwork.Proofs.Random.Stream

/-!
# Requests to a stream

The bytes of a seed are its digests with the counters from zero on, one after the other (`digests`).
A stream that has come to a place is always in the same state (`atPlace`), so what requests leave
behind depends on nothing but the number of bytes that they have asked for together
(`afterRequests_start`). Therefore requests in a row are answered by consecutive bytes, whatever way
they are cut, and those that are refused do not count (`requests_consecutive`).
-/

namespace NotaryNetwork.Random

variable {seed : Bytes}

/-! ## The bytes of a seed -/

/-- The digests of a seed with the counters below a number, one after the other. -/
def digests (seed : Bytes) (count : Nat) : Bytes :=
  (List.range count).flatMap fun counter => Digest.sha256 (seed ++ Bytes.bigEndian 8 counter)

theorem digests_eq_window (seed : Bytes) (count : Nat) :
    digests seed count = window seed 0 (32 * count) := by
  induction count with
  | zero => rfl
  | succ count ih =>
    have last : Digest.sha256 (seed ++ Bytes.bigEndian 8 count) = window seed (32 * count) 32 :=
      block_eq_window seed count
    rw [digests, List.range_succ, List.flatMap_append, ← digests, ih, List.flatMap_singleton, last,
      Nat.mul_succ, ← window_append, Nat.zero_add]

theorem length_digests (seed : Bytes) (count : Nat) : (digests seed count).length = 32 * count := by
  rw [digests_eq_window, length_window]

/-- A window is cut out of the digests. -/
theorem window_eq_digests {first n count : Nat} (h : first + n ≤ 32 * count) :
    window seed first n = ((digests seed count).drop first).take n := by
  have room : n ≤ 32 * count - first := by omega
  rw [digests_eq_window, drop_window (by omega), Nat.zero_add, take_window room]

theorem counter_written {counter : Nat} (h : counter < 0x10000000000000000) :
    Bytes.ofBigEndian (Bytes.bigEndian 8 counter) = counter := by
  rw [Bytes.ofBigEndian_bigEndian]
  exact Nat.mod_eq_of_lt h

/-! ## Places -/

namespace SeededStream

/-- The stream of a seed that has come to a place: no block is made before it is needed. -/
def atPlace (seed : Bytes) (place : Nat) : SeededStream :=
  ⟨seed, (place + 31) / 32, window seed place (32 * ((place + 31) / 32) - place), place⟩

theorem aligned_atPlace (seed : Bytes) (place : Nat) : (atPlace seed place).Aligned := by
  have reached : place ≤ 32 * ((place + 31) / 32) := by omega
  have needed : 32 * ((place + 31) / 32) < place + 32 := by omega
  exact ⟨reached, rfl, needed⟩

/-- An aligned stream is told by its seed and its place. -/
theorem Aligned.eq_atPlace {s : SeededStream} (h : s.Aligned) : s = atPlace s.seed s.bytesDrawn := by
  obtain ⟨given, buffer, needed⟩ := h
  have counter : (s.bytesDrawn + 31) / 32 = s.counter := by omega
  unfold atPlace
  rw [counter, ← buffer]

theorem start_eq_atPlace (seed : Seed) : start seed = atPlace seed.toBytes 0 :=
  (aligned_start seed).eq_atPlace

/-- **A request at a place is answered by the bytes from there on, and the stream comes to the place
behind them.** -/
theorem draw_atPlace (seed : Bytes) (place n : Nat) :
    (atPlace seed place).draw n = (.ok (window seed place n), atPlace seed (place + n)) := by
  obtain ⟨after, answer, aligned, same, drawn⟩ := draw_of_aligned (aligned_atPlace seed place) n
  rw [answer, aligned.eq_atPlace, same, drawn]
  rfl

/-- A request for less than no bytes changes nothing. -/
theorem draw_of_neg {length : Int} (h : length < 0) (s : SeededStream) :
    s.draw length = (.error (negativeLength length), s) :=
  if_pos h

theorem draw_atPlace_after (seed : Bytes) (place : Nat) (length : Int) :
    ((atPlace seed place).draw length).2 = atPlace seed (place + length.toNat) := by
  rcases Int.lt_or_le length 0 with negative | natural
  · rw [draw_of_neg negative, Int.toNat_of_nonpos (Int.le_of_lt negative), Nat.add_zero]
  · obtain ⟨n, rfl⟩ := Int.eq_ofNat_of_zero_le natural
    rw [draw_atPlace, Int.toNat_natCast]

end SeededStream

/-! ## Requests in a row -/

/-- A request to a stream, with the stream before it, the answer and the stream after it. -/
structure Request where
  length : Int
  before : SeededStream
  answer : Except Fault Bytes
  after : SeededStream

/-- The bytes that a request has got: none if it was refused. -/
def Request.bytes (r : Request) : Bytes :=
  match r.answer with
  | .ok bytes => bytes
  | .error _ => []

/-- The number of bytes that requests ask for together; those for less than none do not count. -/
def asked (lengths : List Int) : Nat := (lengths.map Int.toNat).sum

@[simp]
theorem asked_cons (length : Int) (rest : List Int) :
    asked (length :: rest) = length.toNat + asked rest := by
  simp [asked]

theorem asked_append (lengths others : List Int) :
    asked (lengths ++ others) = asked lengths + asked others := by
  simp [asked]

/-- What has been asked for up to a request is no more than what is asked for together. -/
theorem asked_take_le {lengths : List Int} {k : Nat} {length : Int}
    (h : lengths[k]? = some length) : asked (lengths.take k) + length.toNat ≤ asked lengths := by
  obtain ⟨inside, rfl⟩ := List.getElem?_eq_some_iff.mp h
  have cut : asked (lengths.take k ++ lengths.drop k) = asked lengths := by
    rw [List.take_append_drop]
  rw [List.drop_eq_getElem_cons inside, asked_append, asked_cons] at cut
  omega

namespace SeededStream

/-- Requests to a stream, one after the other. -/
def requests (s : SeededStream) : List Int → List Request
  | [] => []
  | length :: rest =>
    ⟨length, s, (s.draw length).1, (s.draw length).2⟩ :: (s.draw length).2.requests rest

/-- The stream after requests. -/
def afterRequests (s : SeededStream) (lengths : List Int) : SeededStream :=
  lengths.foldl (fun s length => (s.draw length).2) s

/-- **Requests bring a stream to the place behind all the bytes that they ask for.** -/
theorem afterRequests_atPlace (seed : Bytes) (place : Nat) (lengths : List Int) :
    (atPlace seed place).afterRequests lengths = atPlace seed (place + asked lengths) := by
  induction lengths generalizing place with
  | nil => rfl
  | cons length rest ih =>
    have next : (atPlace seed place).afterRequests (length :: rest) =
        ((atPlace seed place).draw length).2.afterRequests rest := rfl
    rw [next, draw_atPlace_after, ih, asked_cons, Nat.add_assoc]

theorem afterRequests_start (seed : Seed) (lengths : List Int) :
    (start seed).afterRequests lengths = atPlace seed.toBytes (asked lengths) := by
  rw [start_eq_atPlace, afterRequests_atPlace, Nat.zero_add]

theorem map_length_requests (s : SeededStream) (lengths : List Int) :
    (s.requests lengths).map (·.length) = lengths := by
  induction lengths generalizing s with
  | nil => rfl
  | cons length rest ih => rw [requests, List.map_cons, ih]

/-- A request is made where those before it have brought the stream. -/
theorem requests_getElem? {s : SeededStream} {lengths : List Int} {k : Nat} {r : Request}
    (h : (s.requests lengths)[k]? = some r) :
    lengths[k]? = some r.length ∧ r.before = s.afterRequests (lengths.take k) ∧
      r.before.draw r.length = (r.answer, r.after) := by
  induction lengths generalizing s k with
  | nil => cases h
  | cons length rest ih =>
    cases k with
    | zero =>
      cases h
      exact ⟨rfl, rfl, rfl⟩
    | succ k => exact ih h

end SeededStream

/-- The bytes of requests are those from the place on where they begin. -/
theorem bytes_requests (seed : Bytes) (place : Nat) (lengths : List Int) :
    ((SeededStream.atPlace seed place).requests lengths).flatMap (·.bytes) =
      window seed place (asked lengths) := by
  induction lengths generalizing place with
  | nil => rfl
  | cons length rest ih =>
    rw [SeededStream.requests, List.flatMap_cons, SeededStream.draw_atPlace_after, ih, asked_cons,
      ← window_append]
    congr 1
    rcases Int.lt_or_le length 0 with negative | natural
    · rw [SeededStream.draw_of_neg negative, Int.toNat_of_nonpos (Int.le_of_lt negative)]
      rfl
    · obtain ⟨n, rfl⟩ := Int.eq_ofNat_of_zero_le natural
      rw [SeededStream.draw_atPlace]
      rfl

/-! ## Consecutive bytes -/

/-- A request goes on in a stream of bytes behind those that were given earlier, and leaves the
stream holding back what is left of the last block. -/
structure Request.Continues (r : Request) (stream : Bytes) (earlier : Nat) : Prop where
  answer : 0 ≤ r.length → r.answer = .ok ((stream.drop earlier).take r.length.toNat) ∧
    r.bytes.length = r.length.toNat
  refused : r.length < 0 → r.answer = .error (negativeLength r.length) ∧ r.after = r.before
  drawn : r.after.bytesDrawn = earlier + r.length.toNat
  made : r.after.bytesDrawn ≤ 32 * r.after.counter ∧ 32 * r.after.counter ≤ stream.length
  held : r.after.buffer = (stream.take (32 * r.after.counter)).drop r.after.bytesDrawn
  short : r.after.buffer.length < 32

/-- What a stream holds back is cut out of the digests. -/
theorem SeededStream.buffer_atPlace {seed : Bytes} {place count : Nat} (h : place ≤ 32 * count) :
    (atPlace seed place).buffer =
      ((digests seed count).take (32 * (atPlace seed place).counter)).drop place := by
  have blocks : 32 * ((place + 31) / 32) ≤ 32 * count := by omega
  have reached : place ≤ 32 * ((place + 31) / 32) := by omega
  have counter : (atPlace seed place).counter = (place + 31) / 32 := rfl
  rw [counter, digests_eq_window, take_window blocks, drop_window reached, Nat.zero_add]
  rfl

theorem Request.continues_of_draw {r : Request} {earlier count : Nat}
    (before : r.before = .atPlace seed earlier) (step : r.before.draw r.length = (r.answer, r.after))
    (room : earlier + r.length.toNat ≤ 32 * count) : r.Continues (digests seed count) earlier := by
  have after : r.after = .atPlace seed (earlier + r.length.toNat) := by
    rw [← SeededStream.draw_atPlace_after, ← before, step]
  have aligned : r.after.Aligned := after ▸ SeededStream.aligned_atPlace seed _
  have drawn : r.after.bytesDrawn = earlier + r.length.toNat := congrArg (·.bytesDrawn) after
  have counter : r.after.counter = (r.after.bytesDrawn + 31) / 32 := by
    rw [after]
    rfl
  constructor
  case answer =>
    intro natural
    obtain ⟨n, whole⟩ := Int.eq_ofNat_of_zero_le natural
    rw [whole, Int.toNat_natCast] at room ⊢
    rw [before, whole, SeededStream.draw_atPlace] at step
    obtain ⟨answer, -⟩ := Prod.mk.inj step
    rw [bytes, ← answer, ← window_eq_digests room]
    exact ⟨rfl, length_window _ _ _⟩
  case refused =>
    intro negative
    rw [SeededStream.draw_of_neg negative] at step
    obtain ⟨answer, same⟩ := Prod.mk.inj step
    exact ⟨answer.symm, same.symm⟩
  case drawn => exact drawn
  case made =>
    rw [length_digests]
    exact ⟨aligned.given, by omega⟩
  case held =>
    rw [drawn, after]
    exact SeededStream.buffer_atPlace room
  case short =>
    have needed := aligned.needed
    rw [aligned.buffer, length_window]
    omega

/-- **Requests to a stream are answered by its bytes one after the other: none is left out and none
is given twice, whatever way the requests are cut. A request for less than no bytes is refused and
changes nothing.** -/
theorem requests_consecutive (seed : Seed) (lengths : List Int) {count : Nat}
    (few : asked lengths ≤ 32 * count) (short : count < 0x10000000000000000) :
    (∀ counter < count, Bytes.ofBigEndian (Bytes.bigEndian 8 counter) = counter) ∧
    (((SeededStream.start seed).requests lengths).map (·.length) = lengths ∧
      ∀ (k : Nat) r, ((SeededStream.start seed).requests lengths)[k]? = some r →
        r.Continues (digests seed.toBytes count) (asked (lengths.take k))) ∧
    ((SeededStream.start seed).requests lengths).flatMap (·.bytes) =
      (digests seed.toBytes count).take (asked lengths) ∧
    ∀ others, asked others = asked lengths →
      ((SeededStream.start seed).requests others).flatMap (·.bytes) =
        ((SeededStream.start seed).requests lengths).flatMap (·.bytes) ∧
      (SeededStream.start seed).afterRequests others =
        (SeededStream.start seed).afterRequests lengths := by
  have bytes (lengths : List Int) : ((SeededStream.start seed).requests lengths).flatMap (·.bytes) =
      window seed.toBytes 0 (asked lengths) := by
    rw [SeededStream.start_eq_atPlace, bytes_requests]
  refine ⟨fun counter below => ?_, ⟨?_, fun k r found => ?_⟩, ?_, fun others same => ⟨?_, ?_⟩⟩
  · exact counter_written (Nat.lt_trans below short)
  · exact SeededStream.map_length_requests _ lengths
  · obtain ⟨length, before, step⟩ := SeededStream.requests_getElem? found
    rw [SeededStream.afterRequests_start] at before
    exact Request.continues_of_draw before step (Nat.le_trans (asked_take_le length) few)
  · rw [bytes, digests_eq_window, take_window few]
  · rw [bytes, bytes, same]
  · rw [SeededStream.afterRequests_start, SeededStream.afterRequests_start, same]

/-- Requests up to the end of a block, for nothing, for less than nothing and across a block, against
one request for all of it. -/
theorem requests_consecutive_cut :
    asked [32, 0, -5, 31, 2] ≤ 32 * 3 ∧ 3 < 0x10000000000000000 ∧
    (∀ r, ((SeededStream.start (.number 7)).requests [32, 0, -5, 31, 2])[4]? = some r →
      r.Continues (digests (Seed.number 7).toBytes 3) 63) ∧
    ((SeededStream.start (.number 7)).requests [65]).flatMap (·.bytes) =
      ((SeededStream.start (.number 7)).requests [32, 0, -5, 31, 2]).flatMap (·.bytes) ∧
    ((SeededStream.start (.number 7)).requests [32, 0, -5, 31, 2]).flatMap (·.bytes) =
      (digests (Seed.number 7).toBytes 3).take 65 := by
  have few : asked [32, 0, -5, 31, 2] ≤ 32 * 3 := by decide
  have short : 3 < 0x10000000000000000 := by decide
  obtain ⟨-, ⟨-, continues⟩, bytes, cut⟩ := requests_consecutive (.number 7) _ few short
  exact ⟨few, short, continues 4, (cut [65] rfl).1, bytes⟩

end NotaryNetwork.Random
