import Mudong.Buffer.Queue
import Mudong.Buffer.Scatter
import Mudong.Buffer.Typed

namespace mudong.ev.Buffer

/-- One call of the whole interface of one buffer: those of `Op`, a commit by itself, the typed calls and a read from
a descriptor, with what `::readv` did. -/
inductive Call where
  | basic (op : Op)
  | hasWritten (len : Nat)
  | appendInt (host : Endian.Order) (v : Value)
  | prependInt (host : Endian.Order) (v : Value)
  | readInt (host : Endian.Order) (t : IntType)
  | readFd (result : ReadvResult)
  deriving DecidableEq

namespace Call

def run (b : Buffer) : Call → Option Buffer
  | .basic op => op.run b
  | .hasWritten len => b.hasWritten len
  | .appendInt host v => v.append host b
  | .prependInt host v => v.prepend host b
  | .readInt host t => (t.read host b).map Prod.snd
  | .readFd result => (b.readFd result).map Prod.fst

/-- What the call asserts on entry, and what the kernel promises. -/
def Pre (b : Buffer) : Call → Prop
  | .basic op => op.Pre b
  | .hasWritten len => len ≤ b.writableBytes
  | .appendInt _ _ => True
  | .prependInt _ v => v.type.size ≤ b.prependableBytes
  | .readInt _ t => t.size ≤ b.readableBytes
  | .readFd result => result.Allowed b

instance decidablePre (b : Buffer) : ∀ c : Call, Decidable (c.Pre b)
  | .basic op => inferInstanceAs (Decidable (op.Pre b))
  | .hasWritten len => inferInstanceAs (Decidable (len ≤ b.writableBytes))
  | .appendInt _ _ => inferInstanceAs (Decidable True)
  | .prependInt _ v => inferInstanceAs (Decidable (v.type.size ≤ b.prependableBytes))
  | .readInt _ t => inferInstanceAs (Decidable (t.size ≤ b.readableBytes))
  | .readFd result => inferInstanceAs (Decidable (result.Allowed b))

/-- The bytes the call puts in front of the readable ones. -/
def prepended : Call → Nat
  | .basic (.prepend data) => data.length
  | .prependInt _ v => v.type.size
  | _ => 0

/-- The room the call asks `ensureWritableBytes` for; in a read this is the part that arrived in the stack area. -/
def requested (b : Buffer) : Call → Nat
  | .basic (.append _ data) => data.length
  | .basic (.ensureWritableBytes len) => len
  | .appendInt _ v => v.type.size
  | .readFd (.filled data) => data.length - b.writableBytes
  | _ => 0

/-- The part of the requested room that the call itself leaves unused. -/
def reserved : Call → Nat
  | .basic (.ensureWritableBytes len) => len
  | _ => 0

/-- What one call does to the indices. The reader goes back by what is prepended and no further, except to the
reserved zone; and growth ends the storage where the data and the unused room end, with the reader less than the
requested room past the reserved zone. -/
structure Effect (b : Buffer) (c : Call) (next : Buffer) : Prop where
  valid : next.Valid
  reader : b.readerIndex_ ≤ next.readerIndex_ + c.prepended ∨ kCheapPrepend ≤ next.readerIndex_
  size : next.buffer_.length = b.buffer_.length ∨
    next.buffer_.length = next.writerIndex_ + c.reserved ∧ next.readerIndex_ < c.requested b + kCheapPrepend

theorem Effect.of_extended {b next : Buffer} {c : Call} {data : List UInt8} (hvalid : b.Valid)
    (h : Extended b data (c.requested b) next) (hreserved : c.reserved = 0) : Effect b c next := by
  refine ⟨h.valid hvalid, ?_, ?_⟩
  · obtain hreader | ⟨_, hreader⟩ := h.reader <;> omega
  · obtain hsize | ⟨_, hsize, hreader⟩ := h.size
    · exact .inl hsize
    · exact .inr ⟨by omega, hreader⟩

theorem Effect.of_roomy {b next : Buffer} {len : Nat} (hvalid : b.Valid) (h : Roomy b len next) :
    Effect b (.basic (.ensureWritableBytes len)) next := by
  refine ⟨h.ordered.valid (Nat.le_trans hvalid.reserve h.length_le), ?_, ?_⟩
  · obtain hreader | ⟨_, hreader⟩ := h.reader <;> omega
  · obtain hsize | ⟨_, hsize, hreader⟩ := h.size
    · exact .inl hsize
    · exact .inr ⟨hsize, hreader⟩

/-- Calls that stay inside the storage. -/
theorem Effect.of_index {b next : Buffer} {c : Call} (hvalid : next.Valid)
    (hsize : next.buffer_.length = b.buffer_.length)
    (hreader : b.readerIndex_ ≤ next.readerIndex_ + c.prepended ∨ kCheapPrepend ≤ next.readerIndex_) :
    Effect b c next :=
  ⟨hvalid, hreader, .inl hsize⟩

theorem retrieve_effect {b : Buffer} (c : Call) {len : Nat} (hvalid : b.Valid) (hlen : len ≤ b.readableBytes) :
    ∃ next, b.retrieve len = some next ∧ Effect b c next := by
  obtain ⟨rest, hrest, hvalidRest, _⟩ := retrieve_spec hvalid hlen
  refine ⟨rest, hrest, ?_⟩
  by_cases hpartial : len < b.readableBytes
  · simp only [retrieve, hlen, hpartial, if_true] at hrest
    cases hrest
    exact .of_index hvalidRest rfl (.inl (by simp only; omega))
  · simp only [retrieve, hlen, hpartial, if_false] at hrest
    cases hrest
    exact .of_index hvalidRest rfl (.inr (Nat.le_refl _))

theorem prepend_effect {b : Buffer} {c : Call} {data : List UInt8} (hvalid : b.Valid)
    (hc : c.prepended = data.length) (hroom : data.length ≤ b.prependableBytes) :
    ∃ next, b.prepend data = some next ∧ Effect b c next := by
  obtain ⟨ahead, hahead, hvalidAhead, _⟩ := prepend_spec hvalid hroom
  refine ⟨ahead, hahead, ?_⟩
  simp only [Buffer.prepend, hroom] at hahead
  cases hahead
  have hwriter := hvalid.writer_le
  have hreader := hvalid.reader_le
  have hroom : data.length ≤ b.readerIndex_ := hroom
  refine .of_index hvalidAhead (Slice.length_overwrite (by omega)) (.inl ?_)
  change b.readerIndex_ ≤ b.readerIndex_ - data.length + c.prepended
  omega

theorem append_effect {b : Buffer} {c : Call} {data : List UInt8} (hvalid : b.Valid)
    (hc : c.requested b = data.length) (hreserved : c.reserved = 0) :
    ∃ next, b.append data = some next ∧ Effect b c next := by
  obtain ⟨next, happend, hnext⟩ := append_extends hvalid.ordered data
  rw [← hc] at hnext
  exact ⟨next, happend, .of_extended hvalid hnext hreserved⟩

theorem hasWritten_effect {b : Buffer} (c : Call) {len : Nat} (hvalid : b.Valid) (hlen : len ≤ b.writableBytes) :
    ∃ next, b.hasWritten len = some next ∧ Effect b c next := by
  obtain ⟨hreader, hwriter, hreserve⟩ := hvalid
  refine ⟨{ b with writerIndex_ := b.writerIndex_ + len }, by simp [Buffer.hasWritten, hlen], ?_⟩
  unfold writableBytes at hlen
  refine .of_index ⟨?_, ?_, hreserve⟩ rfl (.inl (Nat.le_add_right _ _))
  · change b.readerIndex_ ≤ b.writerIndex_ + len
    omega
  · change b.writerIndex_ + len ≤ b.buffer_.length
    omega

/-- A call within its precondition succeeds, with this effect. -/
theorem run_effect_basic {b : Buffer} (hvalid : b.Valid) (op : Op) (hpre : op.Pre b) :
    ∃ next, op.run b = some next ∧ Effect b (.basic op) next := by
  cases op with
  | append overload data =>
    obtain ⟨next, hnext⟩ := append_effect (c := .basic (.append overload data)) hvalid rfl rfl
    cases overload <;> exact ⟨next, hnext⟩
  | ensureWritableBytes len =>
    obtain ⟨next, hensure, hroomy⟩ := ensureWritableBytes_roomy hvalid.ordered len
    exact ⟨next, hensure, .of_roomy hvalid hroomy⟩
  | fill data =>
    obtain ⟨next, hwritten, hnext, _⟩ := hasWritten_spec hvalid hpre
    refine ⟨next, hwritten, ?_⟩
    rw [hasWritten_eq hvalid.ordered hpre] at hwritten
    cases hwritten
    exact .of_index hnext (length_writeAtEnd hvalid.ordered hpre) (.inl (Nat.le_add_right _ _))
  | prepend data => exact prepend_effect hvalid rfl hpre
  | retrieve len => exact retrieve_effect _ hvalid hpre
  | retrieveUntil len =>
    have hlen : len ≤ b.readableBytes := by
      obtain ⟨_, hstop⟩ := hpre
      unfold peek beginWrite at hstop
      unfold readableBytes
      omega
    obtain ⟨next, hretrieve, hnext⟩ := retrieve_effect (.basic (.retrieveUntil len)) hvalid hlen
    refine ⟨next, ?_, hnext⟩
    simp [Op.run, retrieveUntil, hpre.2, hretrieve]
  | retrieveInt64 => exact retrieve_effect _ hvalid hpre
  | retrieveInt32 => exact retrieve_effect _ hvalid hpre
  | retrieveInt16 => exact retrieve_effect _ hvalid hpre
  | retrieveInt8 => exact retrieve_effect _ hvalid hpre
  | retrieveAll => exact ⟨b.retrieveAll, rfl, .of_index (retrieveAll_valid hvalid) rfl (.inr (Nat.le_refl _))⟩
  | retrieveAsString len =>
    have hlen : len ≤ b.readableBytes := hpre
    obtain ⟨next, hretrieve, hnext⟩ := retrieve_effect (.basic (.retrieveAsString len)) hvalid hlen
    refine ⟨next, ?_, hnext⟩
    simp [Op.run, Buffer.retrieveAsString, hlen, hretrieve]
  | retrieveAllAsString =>
    obtain ⟨next, hretrieve, hnext⟩ :=
      retrieve_effect (.basic .retrieveAllAsString) hvalid (Nat.le_refl b.readableBytes)
    refine ⟨next, ?_, hnext⟩
    simp [Op.run, Buffer.retrieveAllAsString, Buffer.retrieveAsString, hretrieve]

theorem readInt_effect {b : Buffer} (hvalid : b.Valid) (host : Endian.Order) (t : IntType)
    (hlen : t.size ≤ b.readableBytes) :
    ∃ next, (t.read host b).map Prod.snd = some next ∧ Effect b (.readInt host t) next := by
  obtain ⟨next, hretrieve, hnext⟩ := retrieve_effect (.readInt host t) hvalid hlen
  refine ⟨next, ?_, hnext⟩
  have hsize : b.readable.length = b.readableBytes := hvalid.length_readable
  have hsplit : b.readable = b.readable.take t.size ++ b.readable.drop t.size := by simp
  have htake : (b.readable.take t.size).length = t.size := by
    rw [List.length_take]
    omega
  have hpeek := peekInt_of_prefix hvalid host hsplit
  rw [htake] at hpeek
  cases t with
  | int8 =>
    obtain ⟨byte, rest, hbyte⟩ : ∃ byte rest, b.readable = byte :: rest := by
      apply List.exists_cons_of_length_pos
      change 1 ≤ b.readableBytes at hlen
      omega
    have hretrieve : b.retrieveInt8 = some next := hretrieve
    simp [IntType.read, readInt8, peekInt8_of_prefix hvalid hbyte, hretrieve]
  | int16 =>
    have hretrieve : b.retrieveInt16 = some next := hretrieve
    have hpeek : b.peekInt host 2 = some _ := hpeek
    simp [IntType.read, readInt16, peekInt16, hpeek, hretrieve]
  | int32 =>
    have hretrieve : b.retrieveInt32 = some next := hretrieve
    have hpeek : b.peekInt host 4 = some _ := hpeek
    simp [IntType.read, readInt32, peekInt32, hpeek, hretrieve]
  | int64 =>
    have hretrieve : b.retrieveInt64 = some next := hretrieve
    have hpeek : b.peekInt host 8 = some _ := hpeek
    simp [IntType.read, readInt64, peekInt64, hpeek, hretrieve]

theorem run_effect {b : Buffer} (hvalid : b.Valid) (c : Call) (hpre : c.Pre b) :
    ∃ next, c.run b = some next ∧ Effect b c next := by
  cases c with
  | basic op => exact run_effect_basic hvalid op hpre
  | hasWritten len => exact hasWritten_effect _ hvalid hpre
  | appendInt host v =>
    obtain ⟨next, happend, hnext⟩ :=
      append_effect (c := .appendInt host v) hvalid v.length_encoding.symm rfl
    exact ⟨next, (v.append_eq host b).trans happend, hnext⟩
  | prependInt host v =>
    have hroom : v.encoding.length ≤ b.prependableBytes := by
      rw [v.length_encoding]
      exact hpre
    obtain ⟨next, hprepend, hnext⟩ :=
      prepend_effect (c := .prependInt host v) hvalid v.length_encoding.symm hroom
    exact ⟨next, (v.prepend_eq host b).trans hprepend, hnext⟩
  | readInt host t => exact readInt_effect hvalid host t hpre
  | readFd result =>
    cases result with
    | failed errno => exact ⟨b, rfl, .of_index hvalid rfl (.inl (Nat.le_add_right _ _))⟩
    | filled data =>
      obtain ⟨next, hread, hnext⟩ := readFd_extends hvalid.ordered data
      exact ⟨next, by simp [run, hread], .of_extended hvalid hnext rfl⟩

end Call

end mudong.ev.Buffer
