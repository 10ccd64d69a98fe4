import FinalNewline.Proofs.Links

/-!
# Relaying a buffer to itself

When a buffer is relayed to itself, reads and writes share one position, and each byte that is
read is written over the byte behind it.  So of the bytes that remain every other one is read, and
comes to stand in its own place and in the next.  A byte that was overwritten is never read.

Nothing runs away.  Each exchange takes two of the remaining bytes, or the last one alone, and
only then does a write extend the buffer, at a position that is its new end.  A terminator is
written there if one is owed, and the buffer is left at its end, so that a further relay finds
nothing to do.

## Main Definitions

* `everyOther` — every other element of a list
* `doubled` — a byte string with each byte twice
* `Loop.Overwritten` — how far the copy from a buffer to itself has come

## Main Results

* `Loop.relay_opened`, `Loop.relay_drained`, `Loop.relay_closed` — what a relay from a file to
  itself does
* `relay_onto_itself` — the buffer that such a relay leaves
-/

namespace FinalNewline

/-! ### Every other byte -/

/-- Every other element of a list, beginning with the first. -/
def everyOther {α : Type} : List α → List α
  | [] => []
  | [a] => [a]
  | a :: _ :: rest => a :: everyOther rest

/-- A byte string with each of its bytes twice. -/
def doubled (x : Bytes) : Bytes :=
  x.flatMap fun b => [b, b]

theorem everyOther_cons {α : Type} (a : α) (rest : List α) :
    everyOther (a :: rest) = a :: everyOther (rest.drop 1) := by
  cases rest with
  | nil => rfl
  | cons b rest => rfl

theorem everyOther_eq_nil_iff {α : Type} {xs : List α} : everyOther xs = [] ↔ xs = [] := by
  cases xs with
  | nil => simp [everyOther]
  | cons a rest => simp [everyOther_cons]

theorem length_everyOther {α : Type} (xs : List α) :
    (everyOther xs).length = (xs.length + 1) / 2 := by
  induction xs using everyOther.induct with
  | case1 => simp [everyOther]
  | case2 a => simp [everyOther]
  | case3 a b rest ih =>
    simp only [everyOther, List.length_cons, ih]
    omega

theorem getElem?_everyOther {α : Type} (xs : List α) (j : Nat) :
    (everyOther xs)[j]? = xs[2 * j]? := by
  induction xs using everyOther.induct generalizing j with
  | case1 => simp [everyOther]
  | case2 a =>
    cases j with
    | zero => rfl
    | succ j => simp [everyOther, Nat.mul_add]
  | case3 a b rest ih =>
    cases j with
    | zero => rfl
    | succ j =>
      rw [everyOther, List.getElem?_cons_succ, ih, Nat.mul_add]
      rfl

namespace Loop

theorem read_of_file {file rest : File} {answer : Except Fault Received}
    (h : file.read = (answer, rest)) : Channel.read (Loop.mk file) = (answer, ⟨rest⟩) := by
  show Loop.read _ = _
  rw [Loop.read, h]

/-- How far the copy from a buffer to itself has come: the bytes `done` were read, and stand
twice each behind `start`.  The bytes `left` are yet to be read: every other one of those ahead,
since the rest will be overwritten first. -/
def Overwritten (start done left : Bytes) (loop : Loop) : Prop :=
  ∃ behind ahead, loop = ⟨.opened ⟨behind, ahead, 0, fun _ => rfl⟩⟩ ∧
    behind.reverse = start ++ doubled done ∧ everyOther ahead = left

theorem bytewise_overwritten (start : Bytes) : Bytewise (Overwritten start) where
  exchange := by
    rintro done left b loop ⟨behind, ahead, rfl, hbehind, hleft⟩
    cases ahead with
    | nil => simp [everyOther] at hleft
    | cons c rest =>
      rw [everyOther_cons] at hleft
      obtain ⟨rfl, hrest⟩ := List.cons.inj hleft
      -- The byte goes over the first of `rest`, or extends the buffer if there is none.
      refine ⟨_, _, rfl, rfl, c :: c :: behind, rest.drop 1, rfl, ?_, hrest⟩
      simp [hbehind, doubled]
  ending := by
    rintro done loop ⟨behind, ahead, rfl, hbehind, hleft⟩
    obtain rfl := everyOther_eq_nil_iff.1 hleft
    exact ⟨_, rfl, behind, [], rfl, hbehind, rfl⟩
  accepts := by
    rintro done loop ⟨behind, ahead, rfl, -, -⟩
    rfl

/-- Where nothing is left to be read, the buffer is at its end. -/
theorem Overwritten.eq_atEnd {start done : Bytes} {loop : Loop}
    (h : Overwritten start done [] loop) :
    loop = ⟨.opened (.atEnd (start ++ doubled done))⟩ := by
  obtain ⟨behind, ahead, rfl, hbehind, hleft⟩ := h
  obtain rfl := everyOther_eq_nil_iff.1 hleft
  have hbuffer : (⟨behind, [], 0, fun _ => rfl⟩ : Buffer) = .atEnd (start ++ doubled done) := by
    apply Buffer.ext_of_value_position
    · show behind.reverse ++ [] = _
      rw [List.append_nil, hbehind, Buffer.atEnd, Buffer.value_ofBytesAt]
    · show behind.length + 0 = _
      rw [Buffer.atEnd, Buffer.position_ofBytesAt, ← hbehind, List.length_reverse,
        Nat.add_zero]
  rw [hbuffer]

/-- A relay of a buffer to itself, from a position that has bytes behind it. -/
theorem relay_opened {buffer : Buffer} (h : buffer.remaining ≠ []) :
    let seen := everyOther buffer.remaining
    let owed := owes false (singles seen)
    relay (Loop.mk (.opened buffer)) =
      ⟨exchanges (singles seen) ++ closing owed, none,
        ⟨.opened (.atEnd (buffer.value.take buffer.position ++ doubled seen ++
          if owed then terminator else []))⟩⟩ := by
  intro seen owed
  have hstart : Overwritten (buffer.value.take buffer.position) [] seen ⟨.opened buffer⟩ := by
    have htake := buffer.take_position
    have hahead := buffer.remaining_eq_ahead
    obtain ⟨behind, ahead, gap, hgap⟩ := buffer
    change _ = ahead at hahead
    obtain rfl : gap = 0 := hgap (hahead ▸ h)
    exact ⟨behind, ahead, rfl, by simp [htake, doubled], congrArg everyOther hahead.symm⟩
  obtain ⟨loop, hloop, hrelay⟩ := (bytewise_overwritten _).exists_relay hstart
  obtain rfl := hloop.eq_atEnd
  rw [hrelay]
  cases howed : owes false (singles seen) with
  | true =>
    have hwrite := Buffer.write_atEnd (buffer.value.take buffer.position ++ doubled seen) terminator
    simp only [owed, howed, if_true, ← hwrite]
    rfl
  | false => simp [owed, howed]

/-- From a position with nothing behind it, nothing is relayed. -/
theorem relay_drained {buffer : Buffer} (h : buffer.remaining = []) :
    relay (Loop.mk (.opened buffer)) = ⟨[.read (.bytes [])], none, ⟨.opened buffer⟩⟩ :=
  relay_of_end (read_of_file (File.read_opened_of_remaining_eq_nil h))

theorem relay_closed :
    relay (Loop.mk .closed) =
      ⟨[.readFault File.closedFault], some File.closedFault, ⟨.closed⟩⟩ :=
  relay_of_readFault rfl

end Loop

/-- **A buffer relayed to itself.**  The relay ends without a fault, and its calls are known
beforehand.  From a position with nothing behind it nothing changes.  Otherwise every other one of
the remaining bytes is read, beginning with the first: `k` of them.  They come to stand twice
each behind the bytes before the position, a terminator follows unless the last byte read is a
line feed, and the buffer is left at its end.  A further relay changes nothing. -/
theorem relay_onto_itself (buffer : Buffer) :
    let v := buffer.value
    let p := buffer.position
    let k := (v.length - p + 1) / 2
    let seen := everyOther (v.drop p)
    let final := v.take p ++ doubled seen ++
      if v[p + 2 * (k - 1)]? = some lineFeed then [] else terminator
    let run := relay (Loop.mk (.opened buffer))
    (seen.length = k ∧ ∀ j, seen[j]? = v[p + 2 * j]?) ∧
    run.fault? = none ∧
    run.calls = exchanges (singles seen) ++ closing (owes false (singles seen)) ∧
    (v.length ≤ p → run.state = ⟨.opened buffer⟩) ∧
    (p < v.length → run.state = ⟨.opened (.ofBytesAt final final.length)⟩) ∧
    (relay run.state).fault? = none ∧ (relay run.state).state = run.state := by
  intro v p k seen final run
  have hlength : seen.length = k := by
    rw [length_everyOther, List.length_drop]
  have hseen : ∀ j, seen[j]? = v[p + 2 * j]? := by
    intro j
    rw [getElem?_everyOther, List.getElem?_drop]
  refine ⟨⟨hlength, hseen⟩, ?_⟩
  by_cases hremaining : buffer.remaining = []
  · have hrun : run = _ := Loop.relay_drained hremaining
    have hnone : seen = [] := everyOther_eq_nil_iff.2 hremaining
    have hshort : v.length ≤ p := Buffer.remaining_eq_nil_iff.1 hremaining
    rw [hrun, hnone]
    refine ⟨rfl, rfl, fun _ => rfl, fun hlong => absurd hshort (Nat.not_le_of_lt hlong), ?_⟩
    rw [Loop.relay_drained hremaining]
    exact ⟨rfl, rfl⟩
  · have hlong : p < v.length := by
      rw [Buffer.remaining_eq_nil_iff] at hremaining
      exact Nat.lt_of_not_le hremaining
    have hlast : seen.getLast? = v[p + 2 * (k - 1)]? := by
      rw [List.getLast?_eq_getElem?, hlength, hseen]
    have hsome : seen ≠ [] := fun hnone => hremaining (everyOther_eq_nil_iff.1 hnone)
    have hfinal : final = v.take p ++ doubled seen ++
        if owes false (singles seen) then terminator else [] := by
      rw [terminator_owed hsome, hlast]
    have hrun : run = _ := Loop.relay_opened hremaining
    have hstate : run.state = ⟨.opened (.atEnd final)⟩ := by
      rw [hrun, hfinal]
      rfl
    rw [hstate, Loop.relay_drained (Buffer.remaining_atEnd final)]
    refine ⟨by rw [hrun], by rw [hrun]; rfl, ?_, fun _ => rfl, rfl, rfl⟩
    intro hshort
    exact absurd hlong (Nat.not_lt_of_le hshort)

/-- Three bytes remain: the second is overwritten, and the third is read before the buffer is
extended. -/
theorem relay_onto_itself_odd :
    let buffer : Buffer := .ofBytesAt [0x78, 0x61, 0x62, 0x63] 1
    let final : Bytes := [0x78, 0x61, 0x61, 0x63, 0x63, 0x0A]
    let run := relay (Loop.mk (.opened buffer))
    buffer.position < buffer.value.length ∧ run.fault? = none ∧
      run.state = ⟨.opened (.ofBytesAt final final.length)⟩ := by
  intro buffer final run
  have hlong : buffer.position < buffer.value.length := by decide
  obtain ⟨-, hfault, -, -, hstate, -⟩ := relay_onto_itself buffer
  refine ⟨hlong, hfault, (hstate hlong).trans ?_⟩
  decide

end FinalNewline
