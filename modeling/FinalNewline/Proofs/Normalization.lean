import FinalNewline.Proofs.Links

/-!
# What a relay forgets

A relay of a byte string from one buffer to an empty one stores the normalised byte string.  So
whatever is forgotten on the way is forgotten by `normalize`, and that is little: a final newline
that is stored may have been there, or may have been added.  Nothing else is lost.  Line feeds
before the last one, carriage returns and zero bytes count like all other bytes.

The byte strings that come out are those that lack no final newline.  They are also the ones that
pass unchanged, and they are closed under concatenation, so two outputs that are put together are
again an output.

## Main Definitions

* `Terminated` — byte strings that lack no final newline
* `relayed` — what a relay of a byte string leaves in an empty buffer

## Main Results

* `normalize_eq_normalize_iff` — which byte strings become the same
* `relayed_conflates` — what a relay forgets, what it leaves, and what it leaves alone
-/

namespace FinalNewline

/-- Does a byte string lack no final newline?  It is empty, or ends in a line feed. -/
def Terminated (x : Bytes) : Prop :=
  x = [] ∨ x.getLast? = some lineFeed

/-! ### Normalised byte strings -/

theorem normalize_of_terminated {x : Bytes} (h : Terminated x) : normalize x = x :=
  normalize_eq_self_iff.2 h

theorem normalize_of_not_terminated {x : Bytes} (h : ¬ Terminated x) :
    normalize x = x ++ terminator :=
  if_neg h

theorem terminated_append_terminator (x : Bytes) : Terminated (x ++ terminator) :=
  .inr (by simp [terminator])

/-- A normalised byte string lacks no final newline. -/
theorem terminated_normalize (x : Bytes) : Terminated (normalize x) := by
  by_cases h : Terminated x
  · rwa [normalize_of_terminated h]
  · rw [normalize_of_not_terminated h]
    exact terminated_append_terminator x

@[simp]
theorem normalize_normalize (x : Bytes) : normalize (normalize x) = normalize x :=
  normalize_of_terminated (terminated_normalize x)

/-- Byte strings that lack no final newline can be put together. -/
theorem Terminated.append {x y : Bytes} (hx : Terminated x) (hy : Terminated y) :
    Terminated (x ++ y) := by
  by_cases hnil : y = []
  · rwa [hnil, List.append_nil]
  · rw [Terminated, ← normalize_eq_self_iff, normalize_append hnil, normalize_of_terminated hy]

/-- What a relay writes for the values that it reads lacks no final newline. -/
theorem terminated_finished (values : List Bytes) : Terminated (finished values) := by
  by_cases hnil : finished values = []
  · exact .inl hnil
  · exact .inr (getLast?_finished hnil)

/-- Two byte strings become the same if they were, or if one of them is the other with the final
newline that it lacks. -/
theorem normalize_eq_normalize_iff {x y : Bytes} :
    normalize x = normalize y ↔
      x = y ∨ (¬ Terminated x ∧ y = x ++ terminator) ∨ (¬ Terminated y ∧ x = y ++ terminator) := by
  constructor
  · intro h
    by_cases hx : Terminated x <;> by_cases hy : Terminated y
    · rw [normalize_of_terminated hx, normalize_of_terminated hy] at h
      exact .inl h
    · rw [normalize_of_terminated hx, normalize_of_not_terminated hy] at h
      exact .inr (.inr ⟨hy, h⟩)
    · rw [normalize_of_not_terminated hx, normalize_of_terminated hy] at h
      exact .inr (.inl ⟨hx, h.symm⟩)
    · rw [normalize_of_not_terminated hx, normalize_of_not_terminated hy] at h
      exact .inl (List.append_cancel_right h)
  · rintro (rfl | ⟨hx, rfl⟩ | ⟨hy, rfl⟩)
    · rfl
    · rw [normalize_of_not_terminated hx,
        normalize_of_terminated (terminated_append_terminator x)]
    · rw [normalize_of_not_terminated hy,
        normalize_of_terminated (terminated_append_terminator y)]

/-! ### Relays to an empty buffer -/

/-- What a relay of a byte string leaves in an empty buffer. -/
def relayed (x : Bytes) : Bytes :=
  match (relay (Link.ofBytes x)).state.target with
  | .opened buffer => buffer.value
  | .closed => []

/-- A relay to an empty buffer does not fail, and leaves the normalised byte string there. -/
theorem relay_ofBytes (x : Bytes) :
    (relay (Link.ofBytes x)).fault? = none ∧
      (relay (Link.ofBytes x)).state.target = .opened (.atEnd (normalize x)) := by
  have hempty : Buffer.ofBytes [] = .atEnd [] := rfl
  have hremaining : (Buffer.ofBytes x).remaining = x := by
    rw [Buffer.remaining, Buffer.value_ofBytes, Buffer.position_ofBytes, List.drop_zero]
  have hrelay : relay (Link.ofBytes x) = _ := Link.relay_opened (.ofBytes x) (.ofBytes [])
  rw [hrelay, hremaining, hempty, Buffer.write_atEnd]
  exact ⟨rfl, rfl⟩

theorem relayed_eq_normalize (x : Bytes) : relayed x = normalize x := by
  rw [relayed, (relay_ofBytes x).2]
  exact Buffer.value_ofBytesAt _ _

/-- **What a relay forgets.**  A relay to an empty buffer does not fail, and what it leaves there
tells what was relayed, up to one final newline: two byte strings become the same if and only if
they are, or one of them is the other with the final newline that it lacks.  The byte strings that
are left are those that lack no final newline, and these are left as they are.  Bytes in front of
others pass unchanged, and two outputs put together pass unchanged as well. -/
theorem relayed_conflates :
    (∀ x, (relay (Link.ofBytes x)).fault? = none ∧
      ∃ buffer, (relay (Link.ofBytes x)).state.target = .opened buffer ∧
        buffer.value = relayed x) ∧
    (∀ x y, relayed x = relayed y ↔
      x = y ∨ (¬ Terminated x ∧ y = x ++ terminator) ∨ (¬ Terminated y ∧ x = y ++ terminator)) ∧
    (∀ z, ((∃ x, relayed x = z) ↔ Terminated z) ∧ (Terminated z ↔ relayed z = z)) ∧
    (∀ x y, y ≠ [] → relayed (x ++ y) = x ++ relayed y) ∧
    (∀ x y, relayed (relayed x ++ relayed y) = relayed x ++ relayed y) := by
  simp only [relayed_eq_normalize]
  refine ⟨?_, fun x y => normalize_eq_normalize_iff, ?_, fun x y => normalize_append, ?_⟩
  · intro x
    obtain ⟨hfault, htarget⟩ := relay_ofBytes x
    exact ⟨hfault, _, htarget, Buffer.value_ofBytesAt _ _⟩
  · intro z
    refine ⟨⟨?_, ?_⟩, normalize_eq_self_iff.symm⟩
    · rintro ⟨x, rfl⟩
      exact terminated_normalize x
    · intro hz
      exact ⟨z, normalize_of_terminated hz⟩
  · intro x y
    exact normalize_of_terminated ((terminated_normalize x).append (terminated_normalize y))

/-- A carriage return is not taken for the end of a line, and gets the line feed that makes it
one; a zero byte in front of it is kept. -/
theorem relayed_conflates_return :
    let x : Bytes := [0x00]
    let y : Bytes := [0x0D]
    y ≠ [] ∧ relayed (x ++ y) = x ++ relayed y ∧ relayed y = relayed [0x0D, 0x0A] ∧
      relayed y ≠ relayed [0x0D, 0x0A, 0x0A] := by
  intro x y
  obtain ⟨-, hsame, -, happend, -⟩ := relayed_conflates
  have hy : y ≠ [] := by decide
  refine ⟨hy, happend x y hy, (hsame _ _).2 (.inr (.inl ⟨?_, rfl⟩)), ?_⟩
  · simp [y, Terminated, lineFeed]
  · intro h
    simpa [y, terminator, lineFeed] using (hsame _ _).1 h

end FinalNewline
