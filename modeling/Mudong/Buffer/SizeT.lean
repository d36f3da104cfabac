import Mathlib.Algebra.Ring.Nat
import Mudong.Buffer.Scatter
import Mudong.Lib.Run

namespace mudong.ev.Buffer

/-- How a call ends. After an exception the object is still there; after a failed assertion it is not. -/
inductive Outcome where
  | returned (b : Buffer)
  | threw (b : Buffer)
  | aborted
  deriving DecidableEq

def Outcome.bind (outcome : Outcome) (f : Buffer → Outcome) : Outcome :=
  match outcome with
  | .returned b => f b
  | .threw b => .threw b
  | .aborted => .aborted

/-- The buffer that is left, if any, satisfies `p`. -/
def Outcome.Leaves (p : Buffer → Prop) : Outcome → Prop
  | .returned b => p b
  | .threw b => p b
  | .aborted => True

theorem Outcome.bind_returned (b : Buffer) (f : Buffer → Outcome) : (Outcome.returned b).bind f = f b := rfl

theorem Outcome.bind_threw (b : Buffer) (f : Buffer → Outcome) : (Outcome.threw b).bind f = .threw b := rfl

-- The buffer with 64-bit sizes: lengths and indices are numbers below `2 ^ 64`, sums and differences wrap around, and
-- `maxSize` is the largest size the vector accepts.
namespace SizeT

def add (x y : Nat) : Nat := (x + y) % 2 ^ 64
def sub (x y : Nat) : Nat := (x + 2 ^ 64 - y) % 2 ^ 64

def readableBytes (b : Buffer) : Nat := sub b.writerIndex_ b.readerIndex_
def writableBytes (b : Buffer) : Nat := sub b.buffer_.length b.writerIndex_
def prependableBytes (b : Buffer) : Nat := b.readerIndex_

/-- The constructor, without a result where the vector throws. -/
def create (maxSize initialSize : Nat) : Option Buffer := do
  let size := add kCheapPrepend initialSize
  guard (size ≤ maxSize)
  let b : Buffer :=
    { buffer_ := List.replicate size 0, readerIndex_ := kCheapPrepend, writerIndex_ := kCheapPrepend }
  guard (readableBytes b = 0)
  guard (writableBytes b = initialSize)
  guard (prependableBytes b = kCheapPrepend)
  return b

def retrieve (b : Buffer) (len : Nat) : Outcome :=
  if len ≤ readableBytes b then
    if len < readableBytes b then .returned { b with readerIndex_ := add b.readerIndex_ len }
    else .returned b.retrieveAll
  else .aborted

/-- `vector::resize`, which throws before it touches anything. -/
def resize (maxSize : Nat) (b : Buffer) (n : Nat) : Outcome :=
  if maxSize < n then .threw b else .returned { b with buffer_ := Slice.resize b.buffer_ n 0 }

/-- The readable bytes copied down to the reserved zone. -/
def slide (b : Buffer) : Buffer :=
  { buffer_ := Slice.overwrite b.buffer_ kCheapPrepend (Slice.window b.buffer_ b.readerIndex_ b.writerIndex_)
    readerIndex_ := kCheapPrepend
    writerIndex_ := add kCheapPrepend (readableBytes b) }

def makeSpace (maxSize : Nat) (b : Buffer) (len : Nat) : Outcome :=
  if add (writableBytes b) (prependableBytes b) < add len kCheapPrepend then
    resize maxSize b (add b.writerIndex_ len)
  else if kCheapPrepend < b.readerIndex_ then
    if readableBytes b = readableBytes (slide b) then .returned (slide b) else .aborted
  else .aborted

def ensureWritableBytes (maxSize : Nat) (b : Buffer) (len : Nat) : Outcome :=
  (if writableBytes b < len then makeSpace maxSize b len else .returned b).bind fun b =>
    if len ≤ writableBytes b then .returned b else .aborted

def hasWritten (b : Buffer) (len : Nat) : Outcome :=
  if len ≤ writableBytes b then .returned { b with writerIndex_ := add b.writerIndex_ len } else .aborted

def append (maxSize : Nat) (b : Buffer) (data : List UInt8) : Outcome :=
  (ensureWritableBytes maxSize b data.length).bind fun b => hasWritten (b.writeAtEnd data) data.length

def prepend (b : Buffer) (data : List UInt8) : Outcome :=
  if data.length ≤ prependableBytes b then
    let readerIndex_ := sub b.readerIndex_ data.length
    .returned { b with buffer_ := Slice.overwrite b.buffer_ readerIndex_ data, readerIndex_ }
  else .aborted

def readFd (maxSize : Nat) (b : Buffer) (result : ReadvResult) : Outcome :=
  match result with
  | .failed _ => .returned b
  | .filled data =>
    let writable := writableBytes b
    let read := b.writeAtEnd (data.take writable)
    if data.length ≤ writable then .returned { read with writerIndex_ := add b.writerIndex_ data.length }
    else append maxSize { read with writerIndex_ := read.buffer_.length } (data.drop writable)

/-- The calls that all others of the interface go through. -/
inductive Call where
  | retrieve (len : Nat)
  | retrieveAll
  | ensureWritableBytes (len : Nat)
  | hasWritten (len : Nat)
  | append (data : List UInt8)
  | prepend (data : List UInt8)
  | readFd (result : ReadvResult)
  deriving DecidableEq, Repr

def Call.outcome (maxSize : Nat) (b : Buffer) : Call → Outcome
  | .retrieve len => SizeT.retrieve b len
  | .retrieveAll => .returned b.retrieveAll
  | .ensureWritableBytes len => SizeT.ensureWritableBytes maxSize b len
  | .hasWritten len => SizeT.hasWritten b len
  | .append data => SizeT.append maxSize b data
  | .prepend data => SizeT.prepend b data
  | .readFd result => SizeT.readFd maxSize b result

/-- A caller that catches exceptions and goes on with the buffer. -/
def Call.run (maxSize : Nat) (b : Buffer) (c : Call) : Option Buffer :=
  match c.outcome maxSize b with
  | .returned next => some next
  | .threw next => some next
  | .aborted => none

/-- The room a request asks for ends below `2 ^ 64`; reads are bounded by their vectors. -/
def Call.Fits (b : Buffer) : Call → Prop
  | .ensureWritableBytes len => b.writerIndex_ + len < 2 ^ 64
  | .append data => b.writerIndex_ + data.length < 2 ^ 64
  | .readFd result => result.Allowed b
  | _ => True

instance Call.decidableFits (b : Buffer) : ∀ c : Call, Decidable (c.Fits b)
  | .retrieve _ => inferInstanceAs (Decidable True)
  | .retrieveAll => inferInstanceAs (Decidable True)
  | .ensureWritableBytes len => inferInstanceAs (Decidable (b.writerIndex_ + len < 2 ^ 64))
  | .hasWritten _ => inferInstanceAs (Decidable True)
  | .append data => inferInstanceAs (Decidable (b.writerIndex_ + data.length < 2 ^ 64))
  | .prepend _ => inferInstanceAs (Decidable True)
  | .readFd result => inferInstanceAs (Decidable (result.Allowed b))

/-- How a request for `len` bytes is meant to end: it throws and changes nothing, or it makes the room and keeps the
readable bytes. -/
def Provides (b : Buffer) (len : Nat) : Outcome → Prop
  | .returned roomy => roomy.readerIndex_ ≤ roomy.writerIndex_ ∧ roomy.writerIndex_ ≤ roomy.buffer_.length ∧
      len ≤ roomy.buffer_.length - roomy.writerIndex_ ∧ roomy.readable = b.readable
  | .threw same => same = b
  | .aborted => False

instance decidableProvides (b : Buffer) (len : Nat) : ∀ outcome : Outcome, Decidable (Provides b len outcome)
  | .returned roomy => inferInstanceAs (Decidable (roomy.readerIndex_ ≤ roomy.writerIndex_ ∧
      roomy.writerIndex_ ≤ roomy.buffer_.length ∧ len ≤ roomy.buffer_.length - roomy.writerIndex_ ∧
      roomy.readable = b.readable))
  | .threw same => inferInstanceAs (Decidable (same = b))
  | .aborted => inferInstanceAs (Decidable False)

/-- A well-formed buffer within the vector's limit, with the writer at or behind the reserved zone. -/
structure Sized (maxSize : Nat) (b : Buffer) : Prop where
  valid : b.Valid
  writer : kCheapPrepend ≤ b.writerIndex_
  size : b.buffer_.length ≤ maxSize

theorem add_of_lt {x y : Nat} (h : x + y < 2 ^ 64) : add x y = x + y := by
  rw [add, Nat.mod_eq_of_lt h]

theorem sub_of_le {x y : Nat} (hle : y ≤ x) (hlt : x < 2 ^ 64) : sub x y = x - y := by
  unfold sub
  omega

theorem readableBytes_eq {b : Buffer} (h : b.Ordered) (hsize : b.buffer_.length < 2 ^ 64) :
    readableBytes b = b.readableBytes := by
  have hwriter := h.writer_le
  rw [readableBytes, Buffer.readableBytes, sub_of_le h.reader_le (by omega)]

theorem writableBytes_eq {b : Buffer} (h : b.Ordered) (hsize : b.buffer_.length < 2 ^ 64) :
    writableBytes b = b.writableBytes := by
  rw [writableBytes, Buffer.writableBytes, sub_of_le h.writer_le hsize]

theorem Sized.of_roomy {maxSize : Nat} {b roomy : Buffer} {len : Nat} (h : Sized maxSize b)
    (hroomy : Roomy b len roomy) (hsize : roomy.buffer_.length ≤ maxSize) : Sized maxSize roomy := by
  have hvalid : roomy.Valid := hroomy.ordered.valid (Nat.le_trans h.valid.reserve hroomy.length_le)
  have hcount : roomy.readableBytes = b.readableBytes := by
    rw [← hvalid.length_readable, ← h.valid.length_readable, hroomy.contents]
  refine ⟨hvalid, ?_, hsize⟩
  have hreader := h.valid.reader_le
  have hreader' := hvalid.reader_le
  have hwriter := h.writer
  unfold Buffer.readableBytes at hcount
  obtain hsame | ⟨_, hslid⟩ := hroomy.reader <;> omega

section

variable {maxSize : Nat} (hmax : maxSize < 2 ^ 63) {b : Buffer}

include hmax

theorem Sized.lt_word (h : Sized maxSize b) : b.buffer_.length < 2 ^ 64 := by
  have hsize := h.size
  omega

/-- The free space at both ends never wraps around. -/
theorem add_free (h : Sized maxSize b) :
    add (writableBytes b) (prependableBytes b) = b.writableBytes + b.prependableBytes := by
  have hlt := h.lt_word hmax
  have hreader := h.valid.reader_le
  have hwriter := h.valid.writer_le
  rw [writableBytes_eq h.valid.ordered hlt]
  apply add_of_lt
  change b.buffer_.length - b.writerIndex_ + b.readerIndex_ < 2 ^ 64
  omega

/-- Sliding never wraps around either, so its own assertion holds. -/
theorem slide_roomy (h : Sized maxSize b) {len : Nat} (hleft : kCheapPrepend < b.readerIndex_)
    (hfree : len + kCheapPrepend ≤ b.writableBytes + b.prependableBytes) :
    Roomy b len (slide b) ∧ (slide b).buffer_.length = b.buffer_.length ∧
      readableBytes b = readableBytes (slide b) := by
  have hlt := h.lt_word hmax
  have hreader := h.valid.reader_le
  have hwriter := h.valid.writer_le
  have hcount := readableBytes_eq h.valid.ordered hlt
  have hend : add kCheapPrepend (readableBytes b) = kCheapPrepend + b.readableBytes := by
    rw [hcount]
    apply add_of_lt
    unfold Buffer.readableBytes
    omega
  have hroomy : Roomy b len (slide b) := by
    rw [slide, hend]
    exact .of_slide h.valid.ordered hleft hfree
  have hsize : (slide b).buffer_.length = b.buffer_.length := by
    apply Slice.length_overwrite
    rw [Slice.length_window hwriter]
    omega
  refine ⟨hroomy, hsize, ?_⟩
  rw [readableBytes_eq hroomy.ordered (by omega), hcount]
  simp only [Buffer.readableBytes, slide, hend]
  omega

/-- While the requested room ends below `2 ^ 64`, the request throws or does what it does with unbounded sizes. -/
theorem ensureWritableBytes_agrees (h : Sized maxSize b) {len : Nat} (hfits : b.writerIndex_ + len < 2 ^ 64) :
    ensureWritableBytes maxSize b len = .threw b ∨
      ∃ roomy, ensureWritableBytes maxSize b len = .returned roomy ∧ Sized maxSize roomy ∧ Roomy b len roomy := by
  have hlt := h.lt_word hmax
  have hwritable := writableBytes_eq h.valid.ordered hlt
  have hreserve := h.writer
  -- The final assertion, once the new buffer is known to be in order.
  have hpasses : ∀ roomy : Buffer, Roomy b len roomy → roomy.buffer_.length ≤ maxSize →
      len ≤ writableBytes roomy := by
    intro roomy hroomy hsize
    rw [writableBytes_eq hroomy.ordered (by omega)]
    exact hroomy.room
  by_cases hshort : b.writableBytes < len
  · have hsum : add len kCheapPrepend = len + kCheapPrepend := add_of_lt (by omega)
    by_cases hgrow : b.writableBytes + b.prependableBytes < len + kCheapPrepend
    · have hmake : makeSpace maxSize b len = resize maxSize b (b.writerIndex_ + len) := by
        rw [makeSpace, add_free hmax h, hsum, if_pos hgrow, add_of_lt hfits]
      by_cases hthrows : maxSize < b.writerIndex_ + len
      · left
        rw [ensureWritableBytes, hwritable, if_pos hshort, hmake, resize, if_pos hthrows, Outcome.bind_threw]
      · right
        have hroomy := Roomy.of_growth h.valid.ordered hshort hgrow
        have hsize : (Slice.resize b.buffer_ (b.writerIndex_ + len) 0).length ≤ maxSize := by
          rw [Slice.length_resize]
          omega
        refine ⟨_, ?_, h.of_roomy hroomy hsize, hroomy⟩
        rw [ensureWritableBytes, hwritable, if_pos hshort, hmake, resize, if_neg hthrows, Outcome.bind_returned,
          if_pos (hpasses _ hroomy hsize)]
    · right
      have hleft : kCheapPrepend < b.readerIndex_ := by
        unfold Buffer.prependableBytes at hgrow
        omega
      obtain ⟨hroomy, hsize, hassert⟩ := slide_roomy hmax h hleft (Nat.le_of_not_lt hgrow)
      have hsize : (slide b).buffer_.length ≤ maxSize := by
        rw [hsize]
        exact h.size
      refine ⟨slide b, ?_, h.of_roomy hroomy hsize, hroomy⟩
      rw [ensureWritableBytes, hwritable, if_pos hshort, makeSpace, add_free hmax h, hsum, if_neg hgrow, if_pos hleft,
        if_pos hassert, Outcome.bind_returned, if_pos (hpasses _ hroomy hsize)]
  · right
    have hroom : len ≤ b.writableBytes := by omega
    refine ⟨b, ?_, h, h.valid.ordered, rfl, hroom, .inl rfl, .inl rfl⟩
    rw [ensureWritableBytes, hwritable, if_neg hshort, Outcome.bind_returned, hwritable, if_pos hroom]

/-- A request whose room ends at or past `2 ^ 64` fails an assertion, or it cuts the storage below the writer and
returns. -/
theorem ensureWritableBytes_breaks (h : Sized maxSize b) {len : Nat} (hlen : len < 2 ^ 64)
    (hwraps : 2 ^ 64 ≤ b.writerIndex_ + len) :
    ensureWritableBytes maxSize b len = .aborted ∨
      ∃ cut, ensureWritableBytes maxSize b len = .returned cut ∧ cut.buffer_.length < cut.writerIndex_ := by
  have hlt := h.lt_word hmax
  have hwriter := h.valid.writer_le
  have hsize := h.size
  have hwritable := writableBytes_eq h.valid.ordered hlt
  have hshort : b.writableBytes < len := by
    unfold Buffer.writableBytes
    omega
  rw [ensureWritableBytes, hwritable, if_pos hshort, makeSpace, add_free hmax h]
  by_cases hgrow : b.writableBytes + b.prependableBytes < add len kCheapPrepend
  · -- The new size has wrapped around, to less than what is in use.
    have hnew : add b.writerIndex_ len = b.writerIndex_ + len - 2 ^ 64 := by
      unfold add
      omega
    have hfits : ¬maxSize < b.writerIndex_ + len - 2 ^ 64 := by omega
    rw [if_pos hgrow, hnew, resize, if_neg hfits, Outcome.bind_returned]
    by_cases hassert : len ≤ writableBytes
        { b with buffer_ := Slice.resize b.buffer_ (b.writerIndex_ + len - 2 ^ 64) 0 }
    · rw [if_pos hassert]
      refine .inr ⟨_, rfl, ?_⟩
      rw [Slice.length_resize]
      change b.writerIndex_ + len - 2 ^ 64 < b.writerIndex_
      omega
    · rw [if_neg hassert]
      exact .inl rfl
  · rw [if_neg hgrow]
    by_cases hleft : kCheapPrepend < b.readerIndex_
    · have hfree : 0 + kCheapPrepend ≤ b.writableBytes + b.prependableBytes := by
        unfold Buffer.prependableBytes
        omega
      obtain ⟨hroomy, hslid, hassert⟩ := slide_roomy hmax h hleft hfree
      have hfull : ¬len ≤ writableBytes (slide b) := by
        rw [writableBytes_eq hroomy.ordered (by omega), Buffer.writableBytes]
        omega
      rw [if_pos hleft, if_pos hassert, Outcome.bind_returned, if_neg hfull]
      exact .inl rfl
    · rw [if_neg hleft]
      exact .inl rfl

theorem provides_iff (h : Sized maxSize b) {len : Nat} (hlen : len < 2 ^ 64) :
    Provides b len (ensureWritableBytes maxSize b len) ↔ b.writerIndex_ + len < 2 ^ 64 := by
  constructor
  · intro hprovides
    by_contra hwraps
    obtain haborted | ⟨cut, hcut, hshort⟩ := ensureWritableBytes_breaks hmax h hlen (Nat.le_of_not_lt hwraps)
    · rw [haborted] at hprovides
      exact hprovides
    · rw [hcut] at hprovides
      exact Nat.not_le_of_lt hshort hprovides.2.1
  · intro hfits
    obtain hthrew | ⟨roomy, hreturned, _, hroomy⟩ := ensureWritableBytes_agrees hmax h hfits
    · rw [hthrew]
      exact rfl
    · rw [hreturned]
      exact ⟨hroomy.ordered.reader_le, hroomy.ordered.writer_le, hroomy.room, hroomy.contents⟩

/-- A commit of bytes that fit the tail. -/
theorem Sized.written (h : Sized maxSize b) {data : List UInt8} (hroom : data.length ≤ b.writableBytes) :
    Sized maxSize { b.writeAtEnd data with writerIndex_ := add b.writerIndex_ data.length } := by
  have hlt := h.lt_word hmax
  have hwriter := h.valid.writer_le
  have hsum : add b.writerIndex_ data.length = b.writerIndex_ + data.length := by
    unfold Buffer.writableBytes at hroom
    exact add_of_lt (by omega)
  have hlength := length_writeAtEnd h.valid.ordered hroom
  obtain ⟨hordered, _⟩ := writeAtEnd_spec h.valid.ordered hroom
  rw [hsum]
  refine ⟨hordered.valid ?_, Nat.le_trans h.writer (Nat.le_add_right _ _), ?_⟩
  · simp only [hlength]
    exact h.valid.reserve
  · simp only [hlength]
    exact h.size

theorem append_leaves (h : Sized maxSize b) {data : List UInt8} (hfits : b.writerIndex_ + data.length < 2 ^ 64) :
    (append maxSize b data).Leaves (Sized maxSize) := by
  obtain hthrew | ⟨roomy, hreturned, hsized, hroomy⟩ := ensureWritableBytes_agrees hmax h hfits
  · rw [append, hthrew, Outcome.bind_threw]
    exact h
  · rw [append, hreturned, Outcome.bind_returned, hasWritten]
    split
    · exact hsized.written hmax hroomy.room
    · exact trivial

theorem readFd_leaves (h : Sized maxSize b) {result : ReadvResult} (hallowed : result.Allowed b) :
    (readFd maxSize b result).Leaves (Sized maxSize) := by
  cases result with
  | failed errno => exact h
  | filled data =>
    have hlt := h.lt_word hmax
    have hsize := h.size
    have hwriter := h.valid.writer_le
    have htake : (data.take b.writableBytes).length ≤ b.writableBytes := List.length_take_le _ _
    have hlength := length_writeAtEnd h.valid.ordered htake
    simp only [readFd, writableBytes_eq h.valid.ordered hlt]
    split
    · next hfits =>
      rw [List.take_of_length_le hfits]
      exact h.written hmax hfits
    · next hover =>
      have hoverflow := hallowed.overflow_le
      have hstack : extrabufSize = 65536 := rfl
      apply append_leaves hmax
      · refine ⟨⟨?_, Nat.le_refl _, ?_⟩, ?_, ?_⟩
        · change b.readerIndex_ ≤ (b.writeAtEnd (data.take b.writableBytes)).buffer_.length
          rw [hlength]
          exact Nat.le_trans h.valid.reader_le hwriter
        · simp only [hlength]
          exact h.valid.reserve
        · simp only [hlength]
          exact h.valid.reserve
        · simp only [hlength]
          exact hsize
      · simp only [hlength, List.length_drop]
        omega

theorem outcome_leaves (h : Sized maxSize b) {c : Call} (hfits : c.Fits b) :
    (c.outcome maxSize b).Leaves (Sized maxSize) := by
  have hlt := h.lt_word hmax
  have hreader := h.valid.reader_le
  have hwriter := h.valid.writer_le
  have hall : Sized maxSize b.retrieveAll := ⟨retrieveAll_valid h.valid, Nat.le_refl _, h.size⟩
  cases c with
  | retrieve len =>
    simp only [Call.outcome, retrieve, readableBytes_eq h.valid.ordered hlt]
    split
    · split
      · next hpartial =>
        unfold Buffer.readableBytes at hpartial
        rw [add_of_lt (by omega)]
        exact ⟨⟨by simp only; omega, hwriter, h.valid.reserve⟩, h.writer, h.size⟩
      · exact hall
    · exact trivial
  | retrieveAll => exact hall
  | ensureWritableBytes len =>
    obtain hthrew | ⟨roomy, hreturned, hsized, _⟩ := ensureWritableBytes_agrees hmax h hfits
    · rw [Call.outcome, hthrew]
      exact h
    · rw [Call.outcome, hreturned]
      exact hsized
  | hasWritten len =>
    simp only [Call.outcome, hasWritten, writableBytes_eq h.valid.ordered hlt]
    split
    · next hroom =>
      unfold Buffer.writableBytes at hroom
      rw [add_of_lt (by omega)]
      exact ⟨⟨by simp only; omega, by simp only; omega, h.valid.reserve⟩,
        Nat.le_trans h.writer (Nat.le_add_right _ _), h.size⟩
    · exact trivial
  | append data => exact append_leaves hmax h hfits
  | prepend data =>
    simp only [Call.outcome, prepend]
    split
    · next hroom =>
      have hroom : data.length ≤ b.readerIndex_ := hroom
      have hlength : (Slice.overwrite b.buffer_ (b.readerIndex_ - data.length) data).length = b.buffer_.length :=
        Slice.length_overwrite (by omega)
      rw [sub_of_le hroom (by omega)]
      refine ⟨⟨?_, ?_, ?_⟩, h.writer, ?_⟩
      · simp only
        omega
      · simp only [hlength]
        exact hwriter
      · simp only [hlength]
        exact h.valid.reserve
      · simp only [hlength]
        exact h.size
    · exact trivial
  | readFd result => exact readFd_leaves hmax h hfits

theorem run_sized (h : Sized maxSize b) {c : Call} (hfits : c.Fits b) {next : Buffer}
    (hrun : c.run maxSize b = some next) : Sized maxSize next := by
  have hleaves := outcome_leaves hmax h hfits
  unfold Call.run at hrun
  split at hrun
  · next hreturned =>
    rw [hreturned] at hleaves
    cases hrun
    exact hleaves
  · next hthrew =>
    rw [hthrew] at hleaves
    cases hrun
    exact hleaves
  · cases hrun

end

/-- A constructor whose sum does not wrap around builds the buffer of the unbounded model. -/
theorem create_sized {maxSize initialSize : Nat} {first : Buffer} (hinit : kCheapPrepend + initialSize < 2 ^ 64)
    (hcreate : create maxSize initialSize = some first) : Sized maxSize first := by
  by_cases hsize : kCheapPrepend + initialSize ≤ maxSize
  · have hfirst : first = init initialSize := by
      simp only [create, add_of_lt hinit] at hcreate
      simp only [Option.bind_eq_bind, Option.bind_eq_some_iff, Option.pure_def, Option.some.injEq] at hcreate
      obtain ⟨_, _, _, _, _, _, _, _, hfirst⟩ := hcreate
      exact hfirst.symm
    rw [hfirst]
    refine ⟨init_valid initialSize, Nat.le_refl _, ?_⟩
    rw [init, List.length_replicate]
    exact hsize
  · simp [create, add_of_lt hinit, hsize] at hcreate

/-- Requests for room are safe exactly while it ends below `2 ^ 64`. In every run from a constructor whose own sum does
not wrap around, and in which every request met the condition, the next request, of any 64-bit length, throws and
changes nothing or makes the room and keeps the readable bytes if and only if it meets the condition too. -/
theorem ensureWritableBytes_safe_iff {maxSize initialSize : Nat} {calls : List Call} {first b : Buffer}
    (hmax : maxSize < 2 ^ 63) (hinit : kCheapPrepend + initialSize < 2 ^ 64)
    (hcreate : create maxSize initialSize = some first)
    (hfits : Run.Along (Call.run maxSize) (fun b c => c.Fits b) first calls)
    (hrun : Run.exec (Call.run maxSize) first calls = some b) {len : Nat} (hlen : len < 2 ^ 64) :
    Provides b len (ensureWritableBytes maxSize b len) ↔ b.writerIndex_ + len < 2 ^ 64 := by
  have hsized : Sized maxSize b :=
    Run.exec_invariant (I := Sized maxSize) (fun _ _ _ hsized hfits hstep => run_sized hmax hsized hfits hstep)
      (create_sized hinit hcreate) hfits hrun
  exact provides_iff hmax hsized hlen

/-- After an append of one byte, a request that throws and one that wraps around. -/
theorem ensureWritableBytes_safe_iff_sixteen :
    ∃ b, Run.exec (Call.run (2 ^ 63 - 1)) (init 16) [.append [1]] = some b ∧
      Provides b (2 ^ 63) (ensureWritableBytes (2 ^ 63 - 1) b (2 ^ 63)) ∧
      ¬Provides b (2 ^ 64 - 9) (ensureWritableBytes (2 ^ 63 - 1) b (2 ^ 64 - 9)) := by
  apply Run.Reaches.exists_of (p := fun b : Buffer => b.writerIndex_ = 9)
  · decide +kernel
  · intro b hrun hwriter
    have hcreate : create (2 ^ 63 - 1) 16 = some (init 16) := by decide +kernel
    constructor
    · rw [ensureWritableBytes_safe_iff (by decide) (by decide) hcreate (by decide +kernel) hrun (by decide), hwriter]
      decide
    · rw [ensureWritableBytes_safe_iff (by decide) (by decide) hcreate (by decide +kernel) hrun (by decide), hwriter]
      decide

/-- A length near `2 ^ 64` cuts the storage below the data it holds, with every assertion passed. -/
theorem ensureWritableBytes_cuts_storage :
    create (2 ^ 63 - 1) 16 = some (init 16) ∧
      ∃ b, Run.exec (Call.run (2 ^ 63 - 1)) (init 16) [.append [1]] = some b ∧
        ensureWritableBytes (2 ^ 63 - 1) b (2 ^ 64 - 9) = .returned { b with buffer_ := [] } ∧
        b.writerIndex_ = 9 ∧ ¬Provides b (2 ^ 64 - 9) (ensureWritableBytes (2 ^ 63 - 1) b (2 ^ 64 - 9)) := by
  refine ⟨by decide +kernel, ?_⟩
  apply Run.Reaches.exists
  decide +kernel

end SizeT

end mudong.ev.Buffer
