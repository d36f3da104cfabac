import Mudong.Buffer.Spec

namespace mudong.ev.Buffer

/-- What the kernel may do with the vectors of `readFd`: fail, or fill them in order up to their total length. -/
def ReadvResult.Allowed (b : Buffer) : ReadvResult → Prop
  | .failed _ => True
  | .filled data => data.length ≤ b.iovLength

instance ReadvResult.decidableAllowed (b : Buffer) : ∀ result : ReadvResult, Decidable (result.Allowed b)
  | .failed _ => inferInstanceAs (Decidable True)
  | .filled data => inferInstanceAs (Decidable (data.length ≤ b.iovLength))

/-- What does not fit the tail of the storage went into the second vector, and there is one only while the tail is
shorter than it. -/
theorem ReadvResult.Allowed.overflow_le {b : Buffer} {data : List UInt8} (h : Allowed b (.filled data)) :
    data.length - b.writableBytes ≤ extrabufSize := by
  have hlen : data.length ≤ b.iovLength := h
  unfold iovLength at hlen
  split at hlen <;> omega

/-- A scatter read appends exactly what was read. For every outcome of `::readv` on the vectors passed to it, the
index order is kept and the bytes delivered follow the readable ones, those of them that arrived in the stack area
fitting there; after a failure the buffer is as before, with the error saved. -/
theorem readFd_appends_what_was_read {b : Buffer} (hreader : b.readerIndex_ ≤ b.writerIndex_)
    (hwriter : b.writerIndex_ ≤ b.buffer_.length) (result : ReadvResult) (hallowed : result.Allowed b) :
    ∃ next n savedErrno, b.readFd result = some (next, n, savedErrno) ∧
      next.readerIndex_ ≤ next.writerIndex_ ∧ next.writerIndex_ ≤ next.buffer_.length ∧
      (∀ errno, result = .failed errno → n < 0 ∧ next = b ∧ savedErrno = some errno) ∧
      (∀ data, result = .filled data → n = data.length ∧ next.readable = b.readable ++ data ∧ savedErrno = none ∧
        (data.drop b.writableBytes).length ≤ extrabufSize) := by
  cases result with
  | failed errno =>
    refine ⟨b, -1, some errno, rfl, hreader, hwriter, ?_, by simp⟩
    rintro _ ⟨⟩
    exact ⟨by decide, rfl, rfl⟩
  | filled data =>
    obtain ⟨next, hread, hnext⟩ := readFd_extends ⟨hreader, hwriter⟩ data
    refine ⟨next, data.length, none, hread, hnext.ordered.reader_le, hnext.ordered.writer_le, by simp, ?_⟩
    rintro _ ⟨⟩
    refine ⟨rfl, hnext.contents, rfl, ?_⟩
    rw [List.length_drop]
    exact hallowed.overflow_le

/-- Six bytes into a tail of two: the second vector takes four, and appending them slides the data just read. -/
theorem readFd_appends_what_was_read_slid :
    ∃ next n savedErrno,
      readFd ⟨List.replicate 14 0 ++ [1, 0, 0], 14, 15⟩ (.filled [2, 3, 4, 5, 6, 7]) = some (next, n, savedErrno) ∧
      n = 6 ∧ next.readable = [1, 2, 3, 4, 5, 6, 7] ∧ next.readerIndex_ = 8 := by
  obtain ⟨next, n, saved, hread, _, _, _, hfilled⟩ := readFd_appends_what_was_read
    (b := ⟨List.replicate 14 0 ++ [1, 0, 0], 14, 15⟩) (by decide) (by decide) (.filled [2, 3, 4, 5, 6, 7]) (by decide)
  obtain ⟨hn, hcontents, _⟩ := hfilled _ rfl
  have hreader : (readFd ⟨List.replicate 14 0 ++ [1, 0, 0], 14, 15⟩ (.filled [2, 3, 4, 5, 6, 7])).elim 0
      (fun r => r.1.readerIndex_) = 8 := by decide
  rw [hread] at hreader
  exact ⟨next, n, saved, hread, hn, hcontents, hreader⟩

end mudong.ev.Buffer
