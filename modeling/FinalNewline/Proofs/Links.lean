import FinalNewline.Proofs.Buffers
import FinalNewline.Proofs.Bytewise

/-!
# Relays between two buffers

A relay from one buffer to another writes byte by byte, and each of these writes may overwrite,
extend, or close a gap.  Together they are a single write of the normalised bytes that the first
buffer has left.  The first buffer keeps its byte string and ends up at its end; if it was there
already, or beyond it, nothing is written, and a gap in the second buffer stays open.

A closed file is noticed when it is used and not before.  A closed source is noticed at once, a
closed target only if there is a byte to write, which has then been read.

## Main Definitions

* `Link.Between` — how far the copy from one buffer to another has come

## Main Results

* `Link.relay_opened`, `Link.relay_closed_source`, `Link.relay_closed_target`,
  `Link.relay_drained` — what a relay between two files does
* `relay_between_buffers` — a relay between two buffers is a single write
-/

namespace FinalNewline

section Ends

variable {σ : Type} [Channel σ] {s t : σ}

/-- A relay that finds the end of the stream at once does nothing else. -/
theorem relay_of_end (h : Channel.read s = (.ok (.bytes []), t)) :
    relay s = ⟨[.read (.bytes [])], none, t⟩ :=
  copy_of_end h rfl

/-- A relay whose first read fails does nothing else. -/
theorem relay_of_readFault {fault : Fault} (h : Channel.read s = (.error fault, t)) :
    relay s = ⟨[.readFault fault], some fault, t⟩ :=
  copy_of_readFault h

end Ends

/-! ### Open files -/

namespace File

theorem read_opened_of_remaining_eq_nil {buffer : Buffer} (h : buffer.remaining = []) :
    (opened buffer).read = (.ok (.bytes []), opened buffer) := by
  rw [read, Buffer.read_of_remaining_eq_nil h]

theorem read_opened_of_remaining_eq_cons {buffer : Buffer} {b : UInt8} {rest : Bytes}
    (h : buffer.remaining = b :: rest) :
    (opened buffer).read =
      (.ok (.bytes [b]), opened (buffer.seek (buffer.position + 1))) := by
  rw [read, Buffer.read_of_remaining_eq_cons h]

end File

namespace Link

theorem read_of_source {source rest : File} {answer : Except Fault Received}
    (h : source.read = (answer, rest)) (target : File) :
    Channel.read (Link.mk source target) = (answer, ⟨rest, target⟩) := by
  show Link.read _ = _
  rw [Link.read, h]

/-! ### From one buffer to another -/

/-- How far the copy from the buffer `a` to the buffer `b` has come: the bytes `done` were read,
and were written in one go as far as `b` can tell, and the bytes `left` remain. -/
structure Between (a b : Buffer) (done left : Bytes) (link : Link) : Prop where
  source_eq : link.source = .opened (a.seek (a.position + done.length))
  target_eq : link.target = .opened (b.write done)
  remaining_eq : (a.seek (a.position + done.length)).remaining = left

theorem Between.link_eq {a b : Buffer} {done left : Bytes} {link : Link}
    (h : Between a b done left link) :
    link = ⟨.opened (a.seek (a.position + done.length)), .opened (b.write done)⟩ := by
  obtain ⟨source, target⟩ := link
  obtain ⟨rfl, rfl, -⟩ := h
  rfl

theorem bytewise_between (a b : Buffer) : Bytewise (Between a b) where
  exchange := by
    rintro done left c link h
    obtain rfl := h.link_eq
    have hnext : (a.seek (a.position + done.length)).seek
        ((a.seek (a.position + done.length)).position + 1) =
          a.seek (a.position + (done ++ [c]).length) := by
      rw [Buffer.seek_seek, Buffer.position_seek, List.length_append, List.length_singleton,
        Nat.add_assoc]
    refine ⟨_, _, read_of_source (File.read_opened_of_remaining_eq_cons h.remaining_eq) _, rfl, ?_⟩
    refine ⟨congrArg File.opened hnext, ?_, ?_⟩
    · exact congrArg File.opened (b.write_append done [c]).symm
    · rw [← hnext, Buffer.remaining_seek_succ h.remaining_eq]
  ending := by
    rintro done link h
    obtain rfl := h.link_eq
    exact ⟨_, read_of_source (File.read_opened_of_remaining_eq_nil h.remaining_eq) _, h⟩
  accepts := by
    rintro done link h
    obtain rfl := h.link_eq
    rfl

/-- A relay between two buffers reads the one to its end, and writes the normalised bytes to the
other in one go. -/
theorem relay_opened (a b : Buffer) :
    relay (Link.mk (.opened a) (.opened b)) =
      ⟨exchanges (singles a.remaining) ++ closing (owes false (singles a.remaining)), none,
        ⟨.opened (a.seek (a.position + a.remaining.length)),
          .opened (b.write (normalize a.remaining))⟩⟩ := by
  have hstart : Between a b [] a.remaining ⟨.opened a, .opened b⟩ := ⟨by simp, by simp, by simp⟩
  obtain ⟨link, hlink, hrelay⟩ := (bytewise_between a b).exists_relay hstart
  obtain rfl := hlink.link_eq
  rw [hrelay, normalize_eq_append, Buffer.write_append]
  cases owes false (singles a.remaining) with
  | true => rfl
  | false => simp

/-! ### Closed files, and sources that are at their end -/

/-- A closed source is noticed at once. -/
theorem relay_closed_source (target : File) :
    relay (Link.mk .closed target) =
      ⟨[.readFault File.closedFault], some File.closedFault, ⟨.closed, target⟩⟩ :=
  relay_of_readFault rfl

/-- From a source that is at its end nothing is relayed, to whatever target. -/
theorem relay_drained {a : Buffer} (h : a.remaining = []) (target : File) :
    relay (Link.mk (.opened a) target) =
      ⟨[.read (.bytes [])], none, ⟨.opened a, target⟩⟩ :=
  relay_of_end (read_of_source (File.read_opened_of_remaining_eq_nil h) target)

/-- A closed target is noticed when the first byte is written, which has then been read. -/
theorem relay_closed_target {a : Buffer} {b : UInt8} {rest : Bytes}
    (h : a.remaining = b :: rest) :
    relay (Link.mk (.opened a) .closed) =
      ⟨[.read (.bytes [b]), .write [b] (some File.closedFault)], some File.closedFault,
        ⟨.opened (a.seek (a.position + 1)), .closed⟩⟩ :=
  copy_of_writeFault (read_of_source (File.read_opened_of_remaining_eq_cons h) .closed)
    (by simp [Received.value]) rfl

end Link

/-- **A relay between two buffers is a single write.**  It does not fail.  The first buffer keeps
its byte string and ends up at its end, or stays beyond it.  The second is left as by one write
of the bytes that remained in the first, normalised: what stands before the position and behind
the last byte written is kept, a gap is filled with zeros, and the position moves by the number
of bytes written.  If nothing remained, nothing changes.  Between two new buffers the relay makes
the calls of a relay of the same bytes as data, and stores what it stores. -/
theorem relay_between_buffers (a b : Buffer) :
    let x := normalize a.remaining
    let run := relay (Link.mk (.opened a) (.opened b))
    run.fault? = none ∧
    (∃ a', run.state = ⟨.opened a', .opened (b.write x)⟩ ∧ a'.value = a.value ∧
      a'.position = max a.position a.value.length) ∧
    (b.write x).position = b.position + x.length ∧
    (a.remaining ≠ [] →
      (b.write x).value =
        b.value.take b.position ++ List.replicate (b.position - b.value.length) 0 ++ x ++
          b.value.drop (b.position + x.length)) ∧
    (a.remaining = [] → run.state = ⟨.opened a, .opened b⟩) ∧
    (∀ s : Streams, a = .ofBytes s.source.bytes → b = .ofBytes [] → s.source.IsData →
      s.sink.plan.Willing → s.sink.plan.cap? = none →
      run.fault? = (relay s).fault? ∧ run.calls = (relay s).calls ∧
      (relay s).state.sink.bytes = s.sink.bytes ++ (b.write x).value) := by
  intro x run
  have hrun : run = _ := Link.relay_opened a b
  refine ⟨by rw [hrun], ⟨_, by rw [hrun], a.value_seek _, ?_⟩, b.position_write x, ?_, ?_, ?_⟩
  · rw [Buffer.position_seek, Buffer.length_remaining]
    omega
  · intro hsome
    exact Buffer.value_write (normalize_ne_nil hsome) b
  · intro hnone
    show (relay _).state = _
    rw [Link.relay_drained hnone]
  · intro s ha hb hdata hplan hcap
    obtain ⟨hfault, hcalls, hstored⟩ := relay_of_isData hdata hplan hcap
    have hremaining : a.remaining = s.source.bytes := by
      rw [ha, Buffer.remaining, Buffer.value_ofBytes, Buffer.position_ofBytes, List.drop_zero]
    have hvalue : (b.write x).value = x := by
      rw [hb]
      by_cases hx : x = []
      · rw [hx, Buffer.write_nil, Buffer.value_ofBytes]
      · simp [Buffer.value_write hx]
    refine ⟨by rw [hrun, hfault], ?_, ?_⟩
    · rw [hrun, hcalls, hremaining]
    · rw [hvalue, hstored, ← hremaining]

/-- A source in its middle and a target beyond its end: the gap is filled with zeros. -/
theorem relay_between_buffers_beyond_end :
    let a : Buffer := .ofBytesAt [0x61, 0x62, 0x63] 1
    let b : Buffer := .ofBytesAt [0x78] 3
    let s : Streams := { source := [.data [0x61], .data [], .data [0x62]] }
    let run := relay (Link.mk (.opened a) (.opened b))
    let fresh := relay (Link.mk (.opened (.ofBytes s.source.bytes)) (.opened (.ofBytes [])))
    a.remaining ≠ [] ∧
      (∃ a', run.state = ⟨.opened a', .opened (b.write [0x62, 0x63, 0x0A])⟩ ∧ a'.position = 3) ∧
      (b.write [0x62, 0x63, 0x0A]).value = [0x78, 0x00, 0x00, 0x62, 0x63, 0x0A] ∧
      s.source.IsData ∧ s.sink.plan.Willing ∧ fresh.calls = (relay s).calls := by
  intro a b s run fresh
  have hremaining : a.remaining ≠ [] := by decide
  have hdata : s.source.IsData := by simp [s, Source.IsData]
  have hplan : s.sink.plan.Willing := fun _ _ => rfl
  obtain ⟨-, ⟨a', hstate, -, hposition⟩, -, hvalue, -⟩ := relay_between_buffers a b
  obtain ⟨-, -, -, -, -, hfresh⟩ :=
    relay_between_buffers (.ofBytes s.source.bytes) (.ofBytes [])
  obtain ⟨-, hcalls, -⟩ := hfresh s rfl rfl hdata hplan rfl
  refine ⟨hremaining, ⟨a', hstate, hposition⟩, (hvalue hremaining).trans ?_, hdata, hplan, hcalls⟩
  decide

end FinalNewline
