import FinalNewline.Proofs.Loops
import FinalNewline.Shelf

/-!
# What a session does to its files

The files of a shelf are used by name, and one file may be source and target of the same relay.
So it has to be said which files an action can change, and what is left of them when it fails.
`Effect` lists all that an action can do, one rule for each kind of effect.  The rules for a relay
tell apart how its two files stand: a closed source, a source with nothing left, a closed target,
two open files, and one file for both.  Whatever holds of every action is then proved by cases on
its effect, and from there, by induction on the actions, of every session.

## Main Definitions

* `Action.names`, `Action.edited?` — the files that an action names, and the one it edits
* `Shelf.Effect` — what an action can do
* `Shelf.Turn`, `Shelf.turns`, `Shelf.after` — the turns of a session, and the shelf it leaves
* `Shelf.Turn.KeepsFiles`, `Shelf.Turn.Relays` — what each turn keeps, and what a relay does

## Main Results

* `Shelf.effect_act` — the rules describe every action
* `Shelf.after_of_unnamed`, `Shelf.after_eq_closed_iff` — what sessions keep
* `files_of_session` — the files in every turn of a session, and at its end
-/

namespace FinalNewline

/-- The byte string of a file, as long as the file is open. -/
def File.value? : File → Option Bytes
  | opened buffer => some buffer.value
  | closed => none

/-- The bytes that reads of a file can still bring. -/
def File.remaining : File → Bytes
  | opened buffer => buffer.remaining
  | closed => []

namespace Action

variable {Name : Type}

/-- The files that an action names. -/
def names : Action Name → List Name
  | relay source target => [source, target]
  | write name _ => [name]
  | seek name _ => [name]
  | truncate name => [name]
  | close name => [name]

/-- The file that an action edits: a write, a move or a cut works on the buffer of one file. -/
def edited? : Action Name → Option Name
  | write name _ => some name
  | seek name _ => some name
  | truncate name => some name
  | _ => none

theorem names_of_edited? {action : Action Name} {name : Name} (h : action.edited? = some name) :
    action.names = [name] := by
  cases action <;> simp_all [edited?, names]

theorem ne_close_of_edited? {action : Action Name} {name : Name} (h : action.edited? = some name)
    (other : Name) : action ≠ .close other := by
  rintro rfl
  simp [edited?] at h

end Action

namespace Shelf

variable {Name : Type} [DecidableEq Name]

theorem put_eq_self {shelf : Shelf Name} {name : Name} {file : File} (h : shelf name = file) :
    shelf.put name file = shelf := by
  funext other
  by_cases hother : other = name
  · rw [hother, put_same, h]
  · rw [put_of_ne shelf file hother]

/-! ### One action -/

/-- What an action can do to a shelf: its answer, and the shelf it leaves. -/
inductive Effect (shelf : Shelf Name) : Action Name → Answer → Shelf Name → Prop where
  /-- A file is closed, whether or not it was so before. -/
  | closes (name : Name) : Effect shelf (.close name) .nothing (shelf.put name .closed)
  /-- An edit fails, and changes nothing. -/
  | fails {action : Action Name} {name : Name} (hedited : action.edited? = some name)
      (fault : Fault) : Effect shelf action (.fault fault) shelf
  /-- An edit changes the buffer of an open file. -/
  | edits {action : Action Name} {name : Name} {buffer : Buffer}
      (hedited : action.edited? = some name) (hopen : shelf name = .opened buffer)
      (n : Nat) (edited : Buffer) :
      Effect shelf action (.number n) (shelf.put name (.opened edited))
  /-- A relay finds its source closed. -/
  | sourceClosed {source : Name} (hsource : shelf source = .closed) (target : Name) :
      Effect shelf (.relay source target) (.fault File.closedFault) shelf
  /-- A relay finds nothing left in its source, and does not look at its target. -/
  | drained {source : Name} {a : Buffer} (hsource : shelf source = .opened a)
      (hnone : a.remaining = []) (target : Name) :
      Effect shelf (.relay source target) .nothing shelf
  /-- A relay reads a byte, and then finds its target closed. -/
  | targetClosed {source target : Name} {a : Buffer} (hsource : shelf source = .opened a)
      (hsome : a.remaining ≠ []) (htarget : shelf target = .closed) :
      Effect shelf (.relay source target) (.fault File.closedFault)
        (shelf.put source (.opened (a.seek (a.position + 1))))
  /-- A relay copies from one file to another. -/
  | copies {source target : Name} {a b : Buffer} (hsource : shelf source = .opened a)
      (htarget : shelf target = .opened b) (hne : source ≠ target) :
      Effect shelf (.relay source target) .nothing
        ((shelf.put source (.opened (a.seek (a.position + a.remaining.length)))).put target
          (.opened (b.write (normalize a.remaining))))
  /-- A relay copies from a file to itself. -/
  | doubles {source : Name} {a : Buffer} (hsource : shelf source = .opened a) (value : Bytes) :
      Effect shelf (.relay source source) .nothing (shelf.put source (.opened (.atEnd value)))

theorem act_relay_of_ne {source target : Name} (h : source ≠ target) (shelf : Shelf Name) :
    shelf.act (.relay source target) =
      let run := FinalNewline.relay (Link.mk (shelf source) (shelf target))
      (.ofFault? run.fault?, (shelf.put source run.state.source).put target run.state.target) := by
  rw [act, relay, if_neg h]

theorem act_relay_self (shelf : Shelf Name) (name : Name) :
    shelf.act (.relay name name) =
      let run := FinalNewline.relay (Loop.mk (shelf name))
      (.ofFault? run.fault?, shelf.put name run.state.file) := by
  rw [act, relay, if_pos rfl]

/-- From a closed source nothing is relayed, to whatever target. -/
theorem act_relay_of_closed {shelf : Shelf Name} {source : Name} (h : shelf source = .closed)
    (target : Name) : shelf.act (.relay source target) = (.fault File.closedFault, shelf) := by
  by_cases hsame : source = target
  · subst hsame
    rw [act_relay_self, h, Loop.relay_closed]
    exact congrArg (Prod.mk _) (put_eq_self h)
  · rw [act_relay_of_ne hsame, h, Link.relay_closed_source]
    refine congrArg (Prod.mk _) ?_
    simp only [put_eq_self h, put_eq_self]

/-- From a source that has nothing left nothing is relayed, to whatever target. -/
theorem act_relay_of_drained {shelf : Shelf Name} {source : Name} {a : Buffer}
    (h : shelf source = .opened a) (hnone : a.remaining = []) (target : Name) :
    shelf.act (.relay source target) = (.nothing, shelf) := by
  by_cases hsame : source = target
  · subst hsame
    rw [act_relay_self, h, Loop.relay_drained hnone]
    exact congrArg (Prod.mk _) (put_eq_self h)
  · rw [act_relay_of_ne hsame, h, Link.relay_drained hnone]
    refine congrArg (Prod.mk _) ?_
    simp only [put_eq_self h, put_eq_self]

/-- A relay to a closed target reads one byte, if there is one, and fails to write it. -/
theorem act_relay_of_closed_target {shelf : Shelf Name} {source target : Name} {a : Buffer}
    (hsource : shelf source = .opened a) (hsome : a.remaining ≠ [])
    (htarget : shelf target = .closed) :
    shelf.act (.relay source target) =
      (.fault File.closedFault, shelf.put source (.opened (a.seek (a.position + 1)))) := by
  -- One file cannot be both open and closed.
  have hsame : source ≠ target := by
    rintro rfl
    simp [hsource] at htarget
  obtain ⟨b, rest, hremaining⟩ := List.exists_cons_of_ne_nil hsome
  have hstill : shelf.put source (.opened (a.seek (a.position + 1))) target = .closed := by
    rw [put_of_ne shelf _ (Ne.symm hsame), htarget]
  rw [act_relay_of_ne hsame, hsource, htarget, Link.relay_closed_target hremaining]
  exact congrArg (Prod.mk _) (put_eq_self hstill)

/-- The rules describe every relay. -/
theorem effect_relay (shelf : Shelf Name) (source target : Name) :
    let result := shelf.act (.relay source target)
    Effect shelf (.relay source target) result.1 result.2 := by
  intro result
  cases hsource : shelf source with
  | closed =>
    have hresult : result = _ := act_relay_of_closed hsource target
    rw [hresult]
    exact .sourceClosed hsource target
  | opened a =>
    by_cases hremaining : a.remaining = []
    · have hresult : result = _ := act_relay_of_drained hsource hremaining target
      rw [hresult]
      exact .drained hsource hremaining target
    by_cases hsame : source = target
    · subst hsame
      have hresult : result = _ := act_relay_self shelf source
      rw [hresult, hsource, Loop.relay_opened hremaining]
      exact .doubles hsource _
    cases htarget : shelf target with
    | closed =>
      have hresult : result = _ := act_relay_of_closed_target hsource hremaining htarget
      rw [hresult]
      exact .targetClosed hsource hremaining htarget
    | opened b =>
      have hresult : result = _ := act_relay_of_ne hsame shelf
      rw [hresult, hsource, htarget, Link.relay_opened]
      exact .copies hsource htarget hsame

/-- The rules describe every action. -/
theorem effect_act (shelf : Shelf Name) (action : Action Name) :
    Effect shelf action (shelf.act action).1 (shelf.act action).2 := by
  cases action with
  | relay source target => exact shelf.effect_relay source target
  | close name => exact .closes name
  | write name value =>
    cases hfile : shelf name with
    | opened buffer =>
      simp only [act, hfile, File.write]
      exact .edits rfl hfile _ _
    | closed =>
      simp only [act, hfile, File.write, put_eq_self hfile]
      exact .fails rfl _
  | seek name position =>
    cases hfile : shelf name with
    | opened buffer =>
      cases position with
      | ofNat position =>
        simp only [act, hfile, File.seek]
        exact .edits rfl hfile _ _
      | negSucc position =>
        simp only [act, hfile, File.seek, put_eq_self hfile]
        exact .fails rfl _
    | closed =>
      simp only [act, hfile, File.seek, put_eq_self hfile]
      exact .fails rfl _
  | truncate name =>
    cases hfile : shelf name with
    | opened buffer =>
      simp only [act, hfile, File.truncate]
      exact .edits rfl hfile _ _
    | closed =>
      simp only [act, hfile, File.truncate, put_eq_self hfile]
      exact .fails rfl _

/-! ### What effects keep -/

section Effects

variable {shelf after : Shelf Name} {action : Action Name} {answer : Answer}

/-- An action leaves the files alone that it does not name. -/
theorem Effect.of_unnamed (h : Effect shelf action answer after) {name : Name}
    (hname : name ∉ action.names) : after name = shelf name := by
  cases h with
  | closes other =>
    have hne : name ≠ other := by simpa [Action.names] using hname
    exact put_of_ne shelf _ hne
  | fails hedited fault => rfl
  | edits hedited hopen n edited =>
    rw [Action.names_of_edited? hedited, List.mem_singleton] at hname
    exact put_of_ne shelf _ hname
  | sourceClosed hsource target => rfl
  | drained hsource hnone target => rfl
  | @targetClosed source target a hsource hsome htarget =>
    have hne : name ≠ source ∧ name ≠ target := by simpa [Action.names] using hname
    exact put_of_ne shelf _ hne.1
  | @copies source target a b hsource htarget hsame =>
    have hne : name ≠ source ∧ name ≠ target := by simpa [Action.names] using hname
    rw [put_of_ne _ _ hne.2, put_of_ne _ _ hne.1]
  | @doubles source a hsource value =>
    have hne : name ≠ source := by simpa [Action.names] using hname
    exact put_of_ne shelf _ hne

theorem put_opened_eq_closed_iff {name : Name} {buffer : Buffer} (h : shelf name = .opened buffer)
    (other : Name) (edited : Buffer) :
    shelf.put name (.opened edited) other = .closed ↔ shelf other = .closed := by
  by_cases hother : other = name
  · rw [hother, put_same, h]
    simp
  · rw [put_of_ne shelf _ hother]

/-- Files are closed by closing them, and in no other way; and what is closed stays closed. -/
theorem Effect.eq_closed_iff (h : Effect shelf action answer after) (name : Name) :
    after name = .closed ↔ shelf name = .closed ∨ action = .close name := by
  cases h with
  | closes other =>
    by_cases hother : name = other
    · simp [hother]
    · simp [put_of_ne shelf _ hother, Ne.symm hother]
  | fails hedited fault => simp [Action.ne_close_of_edited? hedited]
  | edits hedited hopen n edited =>
    simp [put_opened_eq_closed_iff hopen, Action.ne_close_of_edited? hedited]
  | sourceClosed hsource target => simp
  | drained hsource hnone target => simp
  | targetClosed hsource hsome htarget => simp [put_opened_eq_closed_iff hsource]
  | copies hsource htarget hsame =>
    rw [put_opened_eq_closed_iff ((put_of_ne shelf _ (Ne.symm hsame)).trans htarget),
      put_opened_eq_closed_iff hsource]
    simp
  | doubles hsource value => simp [put_opened_eq_closed_iff hsource]

/-- An action that fails changes nothing, unless it is a relay. -/
theorem Effect.eq_of_fault (h : Effect shelf action answer after) {fault : Fault}
    (hfault : answer = .fault fault) (honly : ∀ source target, action ≠ .relay source target) :
    after = shelf := by
  cases h with
  | closes name => simp at hfault
  | fails hedited fault => rfl
  | edits hedited hopen n edited => simp at hfault
  | sourceClosed hsource target => rfl
  | drained hsource hnone target => rfl
  | targetClosed hsource hsome htarget => exact absurd rfl (honly _ _)
  | copies hsource htarget hsame => simp at hfault
  | doubles hsource value => simp at hfault

/-! ### What relays do -/

variable {source target : Name}

/-- A relay does not change the byte string of a source that is not its target as well. -/
theorem Effect.value?_source (h : Effect shelf (.relay source target) answer after)
    (hne : source ≠ target) : (after source).value? = (shelf source).value? := by
  cases h with
  | fails hedited fault => rfl
  | edits hedited hopen n edited => simp [Action.edited?] at hedited
  | sourceClosed hsource target => rfl
  | drained hsource hnone target => rfl
  | targetClosed hsource hsome htarget =>
    rw [put_same, hsource]
    exact congrArg some (Buffer.value_seek _ _)
  | copies hsource htarget hsame =>
    rw [put_of_ne _ _ hsame, put_same, hsource]
    exact congrArg some (Buffer.value_seek _ _)
  | doubles hsource value => exact absurd rfl hne

/-- When a relay fails, and when it does not. -/
theorem Effect.relay_answer (h : Effect shelf (.relay source target) answer after) :
    (shelf source = .closed ∨ shelf target = .closed ∧ (shelf source).remaining ≠ []) ∧
        answer = .fault File.closedFault ∨
      ¬ (shelf source = .closed ∨ shelf target = .closed ∧ (shelf source).remaining ≠ []) ∧
        answer = .nothing := by
  cases h with
  | fails hedited fault => simp [Action.edited?] at hedited
  | edits hedited hopen n edited => simp [Action.edited?] at hedited
  | sourceClosed hsource target => exact .inl ⟨.inl hsource, rfl⟩
  | drained hsource hnone target =>
    refine .inr ⟨?_, rfl⟩
    simp [hsource, File.remaining, hnone]
  | targetClosed hsource hsome htarget =>
    refine .inl ⟨.inr ⟨htarget, ?_⟩, rfl⟩
    simpa [hsource, File.remaining] using hsome
  | copies hsource htarget hsame =>
    refine .inr ⟨?_, rfl⟩
    simp [hsource, htarget]
  | doubles hsource value =>
    refine .inr ⟨?_, rfl⟩
    simp [hsource]

/-- A relay that does not fail leaves its source open, with nothing left. -/
theorem Effect.exists_drained (h : Effect shelf (.relay source target) answer after)
    (hanswer : answer = .nothing) :
    ∃ a, after source = .opened a ∧ a.remaining = [] := by
  cases h with
  | fails hedited fault => simp at hanswer
  | edits hedited hopen n edited => simp at hanswer
  | sourceClosed hsource target => simp at hanswer
  | drained hsource hnone target => exact ⟨_, hsource, hnone⟩
  | targetClosed hsource hsome htarget => simp at hanswer
  | @copies source target a b hsource htarget hsame =>
    refine ⟨_, by rw [put_of_ne _ _ hsame, put_same], ?_⟩
    rw [Buffer.remaining_eq_nil_iff, Buffer.value_seek, Buffer.position_seek,
      Buffer.length_remaining]
    omega
  | doubles hsource value => exact ⟨_, put_same _ _ _, Buffer.remaining_atEnd value⟩

end Effects

/-! ### Sessions -/

/-- A turn of a session: an action, and the shelf on which it is taken. -/
structure Turn (Name : Type) where
  before : Shelf Name
  action : Action Name

/-- What the action answered. -/
def Turn.answer (turn : Turn Name) : Answer :=
  (turn.before.act turn.action).1

/-- The shelf that the action left. -/
def Turn.after (turn : Turn Name) : Shelf Name :=
  (turn.before.act turn.action).2

theorem Turn.effect (turn : Turn Name) :
    Effect turn.before turn.action turn.answer turn.after :=
  effect_act turn.before turn.action

/-- The turns of a session. -/
def turns (shelf : Shelf Name) : List (Action Name) → List (Turn Name)
  | [] => []
  | action :: actions => ⟨shelf, action⟩ :: turns (shelf.act action).2 actions

/-- The shelf that a session leaves. -/
def after (shelf : Shelf Name) (actions : List (Action Name)) : Shelf Name :=
  ((shelf.acts actions).getLast?.map Prod.snd).getD shelf

@[simp]
theorem after_nil (shelf : Shelf Name) : shelf.after [] = shelf := rfl

theorem after_cons (shelf : Shelf Name) (action : Action Name) (actions : List (Action Name)) :
    shelf.after (action :: actions) = (shelf.act action).2.after actions := by
  unfold after
  rw [acts]
  cases h : ((shelf.act action).2.acts actions).getLast? with
  | none => simp [List.getLast?_eq_none_iff.1 h]
  | some last => simp [List.getLast?_cons, h]

/-- The turns tell what the session answers. -/
theorem map_turns (shelf : Shelf Name) (actions : List (Action Name)) :
    (shelf.turns actions).map (fun turn => (turn.answer, turn.after)) = shelf.acts actions := by
  induction actions generalizing shelf with
  | nil => rfl
  | cons action actions ih => exact congrArg (_ :: ·) (ih (shelf.act action).2)

/-- A session leaves the files alone that none of its actions names. -/
theorem after_of_unnamed {shelf : Shelf Name} {actions : List (Action Name)} {name : Name}
    (h : ∀ action ∈ actions, name ∉ action.names) : shelf.after actions name = shelf name := by
  induction actions generalizing shelf with
  | nil => rfl
  | cons action actions ih =>
    obtain ⟨hfirst, hothers⟩ := List.forall_mem_cons.1 h
    rw [after_cons, ih hothers, (effect_act shelf action).of_unnamed hfirst]

/-- At the end of a session the files are closed that were so before, and those that it has
closed. -/
theorem after_eq_closed_iff (shelf : Shelf Name) (actions : List (Action Name)) (name : Name) :
    shelf.after actions name = .closed ↔ shelf name = .closed ∨ .close name ∈ actions := by
  induction actions generalizing shelf with
  | nil => simp
  | cons action actions ih =>
    rw [after_cons, ih, (effect_act shelf action).eq_closed_iff, List.mem_cons, or_assoc,
      eq_comm (a := action)]

/-- What each turn keeps: the files that it does not name, the files that are closed and those
that are open, and all files if it fails and is no relay. -/
structure Turn.KeepsFiles (turn : Turn Name) : Prop where
  of_unnamed : ∀ name, name ∉ turn.action.names → turn.after name = turn.before name
  eq_closed_iff : ∀ name,
    turn.after name = .closed ↔ turn.before name = .closed ∨ turn.action = .close name
  of_fault : ∀ fault, turn.answer = .fault fault →
    (∀ source target, turn.action ≠ .relay source target) → turn.after = turn.before

/-- What a relay does in its turn.  It fails in two cases.  If its source is closed, nothing
changes; if its target is closed and its source has bytes left, the source moves by one byte, and
nothing else changes.  If it does not fail, nothing is left in its source, so that any further
relay from there does nothing. -/
structure Turn.Relays (turn : Turn Name) (source target : Name) : Prop where
  value?_source : source ≠ target →
    (turn.after source).value? = (turn.before source).value?
  fails_iff : (∃ fault, turn.answer = .fault fault) ↔
    turn.before source = .closed ∨
      turn.before target = .closed ∧ (turn.before source).remaining ≠ []
  answer_eq : turn.answer = .nothing ∨ turn.answer = .fault File.closedFault
  of_closed_source : turn.before source = .closed → turn.after = turn.before
  of_closed_target : ∀ a, turn.before source = .opened a → turn.before target = .closed →
    a.remaining ≠ [] →
      turn.after = turn.before.put source (.opened (a.seek (a.position + 1)))
  drained : turn.answer = .nothing →
    (∃ a, turn.after source = .opened a ∧ a.remaining = []) ∧
      ∀ other, turn.after.act (.relay source other) = (.nothing, turn.after)

theorem Turn.keepsFiles (turn : Turn Name) : turn.KeepsFiles where
  of_unnamed _ hname := turn.effect.of_unnamed hname
  eq_closed_iff := turn.effect.eq_closed_iff
  of_fault _ hfault honly := turn.effect.eq_of_fault hfault honly

theorem Turn.relays {turn : Turn Name} {source target : Name}
    (h : turn.action = .relay source target) : turn.Relays source target := by
  have heffect : Effect turn.before (.relay source target) turn.answer turn.after :=
    h ▸ turn.effect
  have hafter : turn.after = (turn.before.act (.relay source target)).2 := by
    rw [Turn.after, h]
  refine ⟨heffect.value?_source, ?_, ?_, ?_, ?_, ?_⟩
  · rcases heffect.relay_answer with ⟨hfails, hanswer⟩ | ⟨hworks, hanswer⟩
    · simp [hfails, hanswer]
    · simp [hworks, hanswer]
  · rcases heffect.relay_answer with ⟨-, hanswer⟩ | ⟨-, hanswer⟩
    · exact .inr hanswer
    · exact .inl hanswer
  · intro hclosed
    rw [hafter, act_relay_of_closed hclosed]
  · intro a hsource htarget hsome
    rw [hafter, act_relay_of_closed_target hsource hsome htarget]
  · intro hanswer
    obtain ⟨a, ha, hnone⟩ := heffect.exists_drained hanswer
    exact ⟨⟨a, ha, hnone⟩, act_relay_of_drained ha hnone⟩

end Shelf

/-- **What a session does to its files.**  Over the whole session, files that are not named stay
as they are, and the files that are closed at the end are those that were so before and those that
were closed.  No turn changes more than its action says: see `Shelf.Turn.KeepsFiles`, and for
relays `Shelf.Turn.Relays`. -/
theorem files_of_session {Name : Type} [DecidableEq Name] (shelf : Shelf Name)
    (actions : List (Action Name)) :
    let turns := shelf.turns actions
    let final := shelf.after actions
    turns.map (fun turn => (turn.answer, turn.after)) = shelf.acts actions ∧
    (∀ name, (∀ action ∈ actions, name ∉ action.names) → final name = shelf name) ∧
    (∀ name, final name = .closed ↔ shelf name = .closed ∨ .close name ∈ actions) ∧
    ∀ turn ∈ turns, turn.KeepsFiles ∧
      ∀ source target, turn.action = .relay source target → turn.Relays source target := by
  intro turns final
  refine ⟨shelf.map_turns actions, ?_, shelf.after_eq_closed_iff actions, ?_⟩
  · intro name hname
    exact Shelf.after_of_unnamed hname
  · intro turn _
    exact ⟨turn.keepsFiles, fun source target hrelay => Shelf.Turn.relays hrelay⟩

/-- The target is closed and then relayed to: the byte that was read is gone from the source, and
the relay has failed. -/
theorem files_of_session_closed_target :
    let shelf : Shelf Bool := fun _ => .ofBytes [0x61]
    let actions : List (Action Bool) := [.close true, .relay false true]
    let turn : Shelf.Turn Bool := ⟨shelf.put true .closed, .relay false true⟩
    turn ∈ shelf.turns actions ∧ (∃ fault, turn.answer = .fault fault) ∧
      turn.after false = .opened (.ofBytesAt [0x61] 1) ∧ shelf.after actions true = .closed := by
  intro shelf actions turn
  have hturn : turn ∈ shelf.turns actions := List.mem_cons_of_mem _ List.mem_cons_self
  obtain ⟨-, -, hclosed, hturns⟩ := files_of_session shelf actions
  have hrelays := (hturns turn hturn).2 false true rfl
  have hsource : turn.before false = .opened (.ofBytes [0x61]) := rfl
  have hremaining : (Buffer.ofBytes [0x61]).remaining ≠ [] := by decide
  have hafter := hrelays.of_closed_target _ hsource rfl hremaining
  refine ⟨hturn, hrelays.fails_iff.2 (.inr ⟨rfl, hremaining⟩), ?_, ?_⟩
  · rw [hafter]
    rfl
  · exact (hclosed true).2 (.inr List.mem_cons_self)

end FinalNewline
