import Mudong.Buffer

namespace mudong.ev.Buffer

/-- The index order, and the room for the reserved zone to which an emptied buffer returns. -/
structure Valid (b : Buffer) : Prop where
  reader_le : b.readerIndex_ ≤ b.writerIndex_
  writer_le : b.writerIndex_ ≤ b.buffer_.length
  reserve : kCheapPrepend ≤ b.buffer_.length

/-- The index order alone. -/
structure Ordered (b : Buffer) : Prop where
  reader_le : b.readerIndex_ ≤ b.writerIndex_
  writer_le : b.writerIndex_ ≤ b.buffer_.length

theorem Valid.ordered {b : Buffer} (hvalid : b.Valid) : b.Ordered := ⟨hvalid.reader_le, hvalid.writer_le⟩

theorem Ordered.valid {b : Buffer} (hordered : b.Ordered) (hreserve : kCheapPrepend ≤ b.buffer_.length) : b.Valid :=
  ⟨hordered.reader_le, hordered.writer_le, hreserve⟩

theorem Valid.length_readable {b : Buffer} (hvalid : b.Valid) : b.readable.length = b.readableBytes :=
  Slice.length_window hvalid.writer_le

theorem create_eq_init (initialSize : Nat) : create initialSize = some (init initialSize) := by
  simp [create, init, readableBytes, writableBytes, prependableBytes]

theorem init_valid (initialSize : Nat) : (init initialSize).Valid := by
  constructor <;> simp [init]

theorem readable_init (initialSize : Nat) : (init initialSize).readable = [] := Slice.window_self _ _

theorem retrieveAll_valid {b : Buffer} (hvalid : b.Valid) : b.retrieveAll.Valid :=
  ⟨Nat.le_refl _, hvalid.reserve, hvalid.reserve⟩

theorem readable_retrieveAll (b : Buffer) : b.retrieveAll.readable = [] := Slice.window_self _ _

/-- Retrieval drops from the front, whether it only moves the reader or empties the buffer and resets both
indices. -/
theorem retrieve_spec {b : Buffer} (hvalid : b.Valid) {len : Nat} (hlen : len ≤ b.readableBytes) :
    ∃ rest, b.retrieve len = some rest ∧ rest.Valid ∧ rest.readable = b.readable.drop len := by
  have hbounds := hvalid.reader_le
  by_cases hpartial : len < b.readableBytes
  · refine ⟨{ b with readerIndex_ := b.readerIndex_ + len }, by simp [retrieve, hlen, hpartial], ?_, ?_⟩
    · refine ⟨?_, hvalid.writer_le, hvalid.reserve⟩
      unfold readableBytes at hlen
      change b.readerIndex_ + len ≤ b.writerIndex_
      omega
    · exact Slice.window_add b.buffer_ b.readerIndex_ len b.writerIndex_
  · refine ⟨b.retrieveAll, by simp [retrieve, hlen, hpartial], retrieveAll_valid hvalid, ?_⟩
    rw [readable_retrieveAll, List.drop_eq_nil_of_le]
    rw [hvalid.length_readable]
    omega

theorem retrieveUntil_spec {b : Buffer} (hvalid : b.Valid) {len : Nat} (hlen : len ≤ b.readableBytes) :
    ∃ rest, b.retrieveUntil (b.peek + len) = some rest ∧ rest.Valid ∧ rest.readable = b.readable.drop len := by
  obtain ⟨rest, hretrieve, hrest⟩ := retrieve_spec hvalid hlen
  have hstop : b.peek + len ≤ b.beginWrite := by
    have hbounds := hvalid.reader_le
    unfold readableBytes at hlen
    change b.readerIndex_ + len ≤ b.writerIndex_
    omega
  refine ⟨rest, ?_, hrest⟩
  simp [retrieveUntil, hstop, hretrieve]

/-- The first bytes at `peek()`. -/
theorem window_peek {b : Buffer} {len : Nat} (hlen : len ≤ b.readableBytes) :
    Slice.window b.buffer_ b.peek (b.peek + len) = b.readable.take len := by
  unfold readableBytes at hlen
  simp only [readable, Slice.window, peek, List.drop_take, List.take_take]
  congr 1
  omega

/-- The returned string is exactly what the retrieval dropped. -/
theorem retrieveAsString_spec {b : Buffer} (hvalid : b.Valid) {len : Nat} (hlen : len ≤ b.readableBytes) :
    ∃ rest, b.retrieveAsString len = some (b.readable.take len, rest) ∧ rest.Valid ∧
      rest.readable = b.readable.drop len := by
  obtain ⟨rest, hretrieve, hrest⟩ := retrieve_spec hvalid hlen
  refine ⟨rest, ?_, hrest⟩
  simp [retrieveAsString, hlen, hretrieve, window_peek hlen]

/-- What a request for `len` writable bytes leaves behind. The data stays where it is, the storage possibly grown
behind it, or it slides down to the reserved zone. -/
structure Roomy (b : Buffer) (len : Nat) (roomy : Buffer) : Prop where
  ordered : roomy.Ordered
  contents : roomy.readable = b.readable
  room : len ≤ roomy.writableBytes
  reader : roomy.readerIndex_ = b.readerIndex_ ∨
    kCheapPrepend < b.readerIndex_ ∧ roomy.readerIndex_ = kCheapPrepend
  size : roomy.buffer_.length = b.buffer_.length ∨
    b.buffer_.length ≤ roomy.buffer_.length ∧ roomy.buffer_.length = roomy.writerIndex_ + len ∧
      roomy.readerIndex_ < len + kCheapPrepend

/-- Growth leaves both indices alone. -/
theorem Roomy.of_growth {b : Buffer} (hordered : b.Ordered) {len : Nat} (hshort : b.writableBytes < len)
    (hgrow : b.writableBytes + b.prependableBytes < len + kCheapPrepend) :
    Roomy b len { b with buffer_ := Slice.resize b.buffer_ (b.writerIndex_ + len) 0 } := by
  obtain ⟨hreader, hwriter⟩ := hordered
  unfold writableBytes prependableBytes at *
  have hsize : (Slice.resize b.buffer_ (b.writerIndex_ + len) 0).length = b.writerIndex_ + len :=
    Slice.length_resize _ _ _
  refine ⟨⟨hreader, ?_⟩, ?_, ?_, .inl rfl, .inr ⟨?_, hsize, ?_⟩⟩
  · simp only [hsize]
    omega
  · exact Slice.window_resize 0 hwriter (by omega)
  · simp only [writableBytes, hsize]
    omega
  · simp only [hsize]
    omega
  · change b.readerIndex_ < len + kCheapPrepend
    omega

/-- The data slides only when the free space at both ends suffices, and then the reader has left the reserved
zone. -/
theorem Roomy.of_slide {b : Buffer} (hordered : b.Ordered) {len : Nat} (hleft : kCheapPrepend < b.readerIndex_)
    (hfree : len + kCheapPrepend ≤ b.writableBytes + b.prependableBytes) :
    Roomy b len
      { buffer_ := Slice.overwrite b.buffer_ kCheapPrepend (Slice.window b.buffer_ b.readerIndex_ b.writerIndex_)
        readerIndex_ := kCheapPrepend
        writerIndex_ := kCheapPrepend + b.readableBytes } := by
  obtain ⟨hreader, hwriter⟩ := hordered
  unfold writableBytes prependableBytes at hfree
  have hmoved : (Slice.window b.buffer_ b.readerIndex_ b.writerIndex_).length = b.readableBytes :=
    Slice.length_window hwriter
  have hcount : b.readableBytes = b.writerIndex_ - b.readerIndex_ := rfl
  have hsize : (Slice.overwrite b.buffer_ kCheapPrepend
      (Slice.window b.buffer_ b.readerIndex_ b.writerIndex_)).length = b.buffer_.length := by
    apply Slice.length_overwrite
    omega
  refine ⟨⟨Nat.le_add_right _ _, ?_⟩, ?_, ?_, .inr ⟨hleft, rfl⟩, .inl hsize⟩
  · simp only [hsize]
    omega
  · simp only [readable]
    rw [← hmoved, Slice.window_overwrite_self (by omega)]
  · simp only [writableBytes, hsize]
    omega

theorem makeSpace_roomy {b : Buffer} (hordered : b.Ordered) {len : Nat} (hshort : b.writableBytes < len) :
    ∃ roomy, b.makeSpace len = some roomy ∧ Roomy b len roomy := by
  by_cases hgrow : b.writableBytes + b.prependableBytes < len + kCheapPrepend
  · exact ⟨_, by simp [makeSpace, hgrow], .of_growth hordered hshort hgrow⟩
  · have hleft : kCheapPrepend < b.readerIndex_ := by
      unfold prependableBytes at hgrow
      omega
    refine ⟨_, ?_, .of_slide hordered hleft (by omega)⟩
    simp only [makeSpace, hgrow, if_false, hleft]
    simp [readableBytes]

theorem ensureWritableBytes_roomy {b : Buffer} (hordered : b.Ordered) (len : Nat) :
    ∃ roomy, b.ensureWritableBytes len = some roomy ∧ Roomy b len roomy := by
  by_cases hshort : b.writableBytes < len
  · obtain ⟨roomy, hspace, hroomy⟩ := makeSpace_roomy hordered hshort
    refine ⟨roomy, ?_, hroomy⟩
    simp [ensureWritableBytes, hshort, hspace, hroomy.room]
  · have hroom : len ≤ b.writableBytes := by omega
    refine ⟨b, ?_, hordered, rfl, hroom, .inl rfl, .inl rfl⟩
    simp [ensureWritableBytes, hshort, hroom]

theorem Roomy.length_le {b roomy : Buffer} {len : Nat} (h : Roomy b len roomy) :
    b.buffer_.length ≤ roomy.buffer_.length := by
  obtain hsame | hgrown := h.size
  · omega
  · exact hgrown.1

theorem ensureWritableBytes_spec {b : Buffer} (hvalid : b.Valid) (len : Nat) :
    ∃ roomy, b.ensureWritableBytes len = some roomy ∧ roomy.Valid ∧ roomy.readable = b.readable := by
  obtain ⟨roomy, hensure, hroomy⟩ := ensureWritableBytes_roomy hvalid.ordered len
  exact ⟨roomy, hensure, hroomy.ordered.valid (Nat.le_trans hvalid.reserve hroomy.length_le), hroomy.contents⟩

theorem length_writeAtEnd {b : Buffer} (hordered : b.Ordered) {data : List UInt8}
    (hroom : data.length ≤ b.writableBytes) : (b.writeAtEnd data).buffer_.length = b.buffer_.length := by
  have hwriter := hordered.writer_le
  apply Slice.length_overwrite
  unfold writableBytes at hroom
  unfold beginWrite
  omega

/-- Bytes copied to `beginWrite()` become readable once the writer index moves behind them. -/
theorem writeAtEnd_spec {b : Buffer} (hordered : b.Ordered) {data : List UInt8}
    (hroom : data.length ≤ b.writableBytes) :
    Ordered { b.writeAtEnd data with writerIndex_ := b.writerIndex_ + data.length } ∧
      readable { b.writeAtEnd data with writerIndex_ := b.writerIndex_ + data.length } = b.readable ++ data := by
  have hsize := length_writeAtEnd hordered hroom
  obtain ⟨hreader, hwriter⟩ := hordered
  unfold writableBytes at hroom
  refine ⟨⟨?_, ?_⟩, Slice.window_overwrite_back hreader hwriter⟩
  · change b.readerIndex_ ≤ b.writerIndex_ + data.length
    omega
  · simp only [hsize]
    omega

/-- A caller's copy to `beginWrite()` and the call that commits it. -/
theorem hasWritten_eq {b : Buffer} (hordered : b.Ordered) {data : List UInt8}
    (hroom : data.length ≤ b.writableBytes) :
    (b.writeAtEnd data).hasWritten data.length =
      some { b.writeAtEnd data with writerIndex_ := b.writerIndex_ + data.length } := by
  have hcommit : data.length ≤ (b.writeAtEnd data).writableBytes := by
    unfold writableBytes
    rw [length_writeAtEnd hordered hroom]
    exact hroom
  simp only [hasWritten, hcommit]
  rfl

theorem hasWritten_spec {b : Buffer} (hvalid : b.Valid) {data : List UInt8}
    (hroom : data.length ≤ b.writableBytes) :
    ∃ next, (b.writeAtEnd data).hasWritten data.length = some next ∧ next.Valid ∧
      next.readable = b.readable ++ data := by
  obtain ⟨hnext, hcontents⟩ := writeAtEnd_spec hvalid.ordered hroom
  refine ⟨_, hasWritten_eq hvalid.ordered hroom, hnext.valid ?_, hcontents⟩
  simp only [length_writeAtEnd hvalid.ordered hroom]
  exact hvalid.reserve

/-- What an operation leaves behind that adds `data` at the end, the last `len` bytes of it by an append. Where the
append has to grow the storage it fills it up, and the reader is then less than `len` bytes past the reserved
zone. -/
structure Extended (b : Buffer) (data : List UInt8) (len : Nat) (next : Buffer) : Prop where
  ordered : next.Ordered
  contents : next.readable = b.readable ++ data
  reader : next.readerIndex_ = b.readerIndex_ ∨
    kCheapPrepend < b.readerIndex_ ∧ next.readerIndex_ = kCheapPrepend
  size : next.buffer_.length = b.buffer_.length ∨
    b.buffer_.length ≤ next.buffer_.length ∧ next.buffer_.length = next.writerIndex_ ∧
      next.readerIndex_ < len + kCheapPrepend

theorem Extended.length_le {b next : Buffer} {data : List UInt8} {len : Nat} (h : Extended b data len next) :
    b.buffer_.length ≤ next.buffer_.length := by
  obtain hsame | hgrown := h.size
  · omega
  · exact hgrown.1

theorem Extended.valid {b next : Buffer} {data : List UInt8} {len : Nat} (h : Extended b data len next)
    (hvalid : b.Valid) : next.Valid :=
  h.ordered.valid (Nat.le_trans hvalid.reserve h.length_le)

theorem append_extends {b : Buffer} (hordered : b.Ordered) (data : List UInt8) :
    ∃ next, b.append data = some next ∧ Extended b data data.length next := by
  obtain ⟨roomy, hensure, hroomy⟩ := ensureWritableBytes_roomy hordered data.length
  have hwritten := hasWritten_eq hroomy.ordered hroomy.room
  obtain ⟨hnext, hcontents⟩ := writeAtEnd_spec hroomy.ordered hroomy.room
  have hsize := length_writeAtEnd hroomy.ordered hroomy.room
  refine ⟨_, ?_, hnext, by rw [hcontents, hroomy.contents], hroomy.reader, ?_⟩
  · simp only [append, hensure]
    exact hwritten
  · simp only [hsize]
    exact hroomy.size

theorem append_spec {b : Buffer} (hvalid : b.Valid) (data : List UInt8) :
    ∃ next, b.append data = some next ∧ next.Valid ∧ next.readable = b.readable ++ data := by
  obtain ⟨next, happend, hnext⟩ := append_extends hvalid.ordered data
  exact ⟨next, happend, hnext.valid hvalid, hnext.contents⟩

theorem prepend_spec {b : Buffer} (hvalid : b.Valid) {data : List UInt8}
    (hroom : data.length ≤ b.prependableBytes) :
    ∃ next, b.prepend data = some next ∧ next.Valid ∧ next.readable = data ++ b.readable := by
  obtain ⟨hreader, hwriter, hreserve⟩ := hvalid
  have hroom' : data.length ≤ b.readerIndex_ := hroom
  have hback : b.readerIndex_ - data.length + data.length = b.readerIndex_ := by omega
  have hsize : (Slice.overwrite b.buffer_ (b.readerIndex_ - data.length) data).length = b.buffer_.length := by
    apply Slice.length_overwrite
    omega
  refine ⟨{ b with buffer_ := Slice.overwrite b.buffer_ (b.readerIndex_ - data.length) data
                   readerIndex_ := b.readerIndex_ - data.length }, ?_, ⟨?_, ?_, ?_⟩, ?_⟩
  · simp [prepend, hroom]
  · change b.readerIndex_ - data.length ≤ b.writerIndex_
    omega
  · simp only [hsize]
    exact hwriter
  · simp only [hsize]
    exact hreserve
  · have hend : b.readerIndex_ - data.length + data.length ≤ b.writerIndex_ := by omega
    have hfront := Slice.window_overwrite_front hend hwriter
    rw [hback] at hfront
    exact hfront

/-- A read adds exactly the bytes the kernel delivered, also when a part of them arrives in the stack area
and is appended from there. -/
theorem readFd_extends {b : Buffer} (hordered : b.Ordered) (data : List UInt8) :
    ∃ next : Buffer, b.readFd (.filled data) = some (next, (data.length : Int), none) ∧
      Extended b data (data.length - b.writableBytes) next := by
  have hwriter := hordered.writer_le
  have htake : (data.take b.writableBytes).length ≤ b.writableBytes := List.length_take_le _ _
  have hsize := length_writeAtEnd hordered htake
  obtain ⟨hread, hcontents⟩ := writeAtEnd_spec hordered htake
  by_cases hfits : data.length ≤ b.writableBytes
  · have hall : data.take b.writableBytes = data := List.take_of_length_le hfits
    rw [hall] at hread hcontents hsize
    refine ⟨_, ?_, hread, hcontents, .inl rfl, .inl hsize⟩
    simp only [readFd, hfits, if_true, hall]
    rfl
  · have hcut : (data.take b.writableBytes).length = b.writableBytes := by
      simp only [List.length_take]
      omega
    -- The tail of the storage is full, so the writer index that the code sets is where the bytes end.
    have hfull : b.writerIndex_ + (data.take b.writableBytes).length =
        (b.writeAtEnd (data.take b.writableBytes)).buffer_.length := by
      rw [hsize, hcut]
      unfold writableBytes
      omega
    rw [hfull] at hread hcontents
    obtain ⟨grown, happend, hgrown⟩ := append_extends hread (data.drop b.writableBytes)
    obtain ⟨hnext, hall, hreader, hgrowth⟩ := hgrown
    refine ⟨grown, ?_, hnext, ?_, hreader, ?_⟩
    · simp only [readFd, hfits, if_false, happend]
      rfl
    · rw [hall, hcontents, List.append_assoc, List.take_append_drop]
    · simp only [hsize, List.length_drop] at hgrowth
      exact hgrowth

theorem readFd_spec {b : Buffer} (hvalid : b.Valid) (data : List UInt8) :
    ∃ next : Buffer, b.readFd (.filled data) = some (next, (data.length : Int), none) ∧ next.Valid ∧
      next.readable = b.readable ++ data := by
  obtain ⟨next, hread, hnext⟩ := readFd_extends hvalid.ordered data
  exact ⟨next, hread, hnext.valid hvalid, hnext.contents⟩

end mudong.ev.Buffer
