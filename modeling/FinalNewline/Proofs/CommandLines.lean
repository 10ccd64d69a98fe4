import FinalNewline.Proofs.Success

/-!
# Command lines

Arguments are looked at from left to right, and what was seen first counts.  Here the same is
said without an order, as far as that is possible.  The first `--` divides a command line into
two parts.  In front of it an argument is an option or an operand, by its own looks alone;
behind it, all are operands.  A command line is refused for the leftmost offending option
alone, and if no option offends, it does not matter where the options stand.

## Main Definitions

* `optionPart`, `operandPart` — the two parts of a command line
* `IsOption`, `Offends`, `offence` — what is to be said of a single argument
* `operandsOf` — the operands of a command line
* `Refuses`, `ShowsHelp` — what it is for a run to refuse its arguments, or to show the help text

## Main Results

* `Argument.ofString_of_isOption`, `Argument.ofString_of_not_isOption` — a single argument, by
  its looks
* `Arguments.scan_of_offending`, `Arguments.scan_of_clean` — the scan, without its order
* `run_by_arguments` — what a run of the command does, by its command line
-/

namespace FinalNewline.Command

/-- The arguments in front of the first `--`. -/
def optionPart (arguments : List String) : List String :=
  arguments.takeWhile (· ≠ optionsEnd)

/-- The arguments behind the first `--`. -/
def operandPart (arguments : List String) : List String :=
  (arguments.dropWhile (· ≠ optionsEnd)).tail

/-- An option begins with a dash and has more characters than that. -/
def IsOption (argument : String) : Prop :=
  argument.toList.head? = some '-' ∧ 1 < argument.toList.length

/-- An option offends unless it is exactly the one there is. -/
def Offends (argument : String) : Prop :=
  IsOption argument ∧ argument ≠ helpOption

instance (argument : String) : Decidable (IsOption argument) :=
  inferInstanceAs (Decidable (_ ∧ _))

instance (argument : String) : Decidable (Offends argument) :=
  inferInstanceAs (Decidable (_ ∧ _))

/-- Why an offending option is refused.  Its name is what stands before its first equals sign;
one that begins with a single dash is named by its first letter alone. -/
def offence (argument : String) : UsageError :=
  let name := String.ofList (Argument.optionName argument.toList)
  if name = helpOption then .valueForHelp
  else if argument.toList.take 2 = optionsEnd.toList then
    .unknownOption name (Text.isSimilar helpOption name)
  else .unknownOption (String.ofList (argument.toList.take 2)) false

/-- The operands of a command line, in order. -/
def operandsOf (arguments : List String) : List String :=
  (optionPart arguments).filter (¬ IsOption ·) ++ operandPart arguments

/-! ### Single arguments -/

theorem isOption_iff {argument : String} :
    IsOption argument ↔ ∃ letter rest, argument.toList = '-' :: letter :: rest := by
  unfold IsOption
  rcases h : argument.toList with _ | ⟨first, _ | ⟨letter, rest⟩⟩ <;> simp

theorem ofList_eq_iff {characters : List Char} {text : String} :
    String.ofList characters = text ↔ characters = text.toList := by
  rw [← String.toList_inj, String.toList_ofList]

/-- An option asks for help or is refused. -/
theorem Argument.ofString_of_isOption {argument : String} (h : IsOption argument) :
    Argument.ofString argument =
      if argument = helpOption then .help else .offending (offence argument) := by
  obtain ⟨letter, rest, hcharacters⟩ := isOption_iff.1 h
  have hhelp : argument = helpOption ↔ '-' :: letter :: rest = helpOption.toList := by
    rw [← hcharacters, String.toList_inj]
  have hfront : argument.toList.take 2 = ['-', letter] := by simp [hcharacters]
  have hdashes : ['-', letter] = optionsEnd.toList ↔ letter = '-' := by simp [optionsEnd]
  unfold ofString offence
  simp only [ofList_eq_iff, hhelp, hfront, hdashes]
  rw [hcharacters, ofChars]
  by_cases hname : optionName ('-' :: letter :: rest) = helpOption.toList
  · have hexact : helpOption.toList = '-' :: letter :: rest ↔
        '-' :: letter :: rest = helpOption.toList := eq_comm
    simp only [hname, if_true, hexact]
  · -- The help option has no equals sign, so its name is all of it.
    have hother : '-' :: letter :: rest ≠ helpOption.toList := by
      intro hsame
      rw [hsame] at hname
      exact hname (by decide)
    simp only [if_neg hname, if_neg hother]
    split
    · rfl
    · rfl

/-- What is no option is an operand. -/
theorem Argument.ofString_of_not_isOption {argument : String} (h : ¬ IsOption argument) :
    Argument.ofString argument = .operand := by
  unfold ofString ofChars
  split
  · next letter rest hcharacters => exact absurd (isOption_iff.2 ⟨letter, rest, hcharacters⟩) h
  · rfl

/-! ### Scans -/

theorem isOption_helpOption : IsOption helpOption := by decide

theorem eq_helpOption_of_not_offends {argument : String} (hoption : IsOption argument)
    (hclean : ¬ Offends argument) : argument = helpOption :=
  Decidable.byContradiction fun hother => hclean ⟨hoption, hother⟩

theorem optionPart_optionsEnd (rest : List String) : optionPart (optionsEnd :: rest) = [] := by
  simp [optionPart]

theorem optionPart_cons {argument : String} (h : argument ≠ optionsEnd) (rest : List String) :
    optionPart (argument :: rest) = argument :: optionPart rest := by
  simp [optionPart, h]

theorem operandsOf_optionsEnd (rest : List String) : operandsOf (optionsEnd :: rest) = rest := by
  simp [operandsOf, optionPart, operandPart]

theorem operandsOf_cons {argument : String} (h : argument ≠ optionsEnd) (rest : List String) :
    operandsOf (argument :: rest) =
      if IsOption argument then operandsOf rest else argument :: operandsOf rest := by
  by_cases hoption : IsOption argument <;>
    simp [operandsOf, optionPart, operandPart, h, hoption]

namespace Arguments

/-- Behind the first `--` nothing is looked at. -/
theorem scan_optionsEnd (rest : List String) :
    scan (optionsEnd :: rest) = .ok ⟨false, rest⟩ := by
  rw [scan, if_pos rfl]

/-- An argument that does not offend is noted, and the scan goes on. -/
theorem scan_cons {argument : String} (hends : argument ≠ optionsEnd)
    (hclean : ¬ Offends argument) (rest : List String) :
    scan (argument :: rest) = (scan rest).map fun scanned =>
      if IsOption argument then { scanned with help := true }
      else { scanned with operands := argument :: scanned.operands } := by
  rw [scan, if_neg hends]
  by_cases hoption : IsOption argument
  · rw [Argument.ofString_of_isOption hoption,
      if_pos (eq_helpOption_of_not_offends hoption hclean)]
    simp only [if_pos hoption]
  · rw [Argument.ofString_of_not_isOption hoption]
    simp only [if_neg hoption]

/-- A command line is refused for its leftmost offending option, whatever follows. -/
theorem scan_of_offending {arguments front rest : List String} {argument : String}
    (harguments : optionPart arguments = front ++ argument :: rest)
    (hfront : ∀ earlier ∈ front, ¬ Offends earlier) (hoffends : Offends argument) :
    scan arguments = .error (offence argument) := by
  induction arguments generalizing front with
  | nil => simp [optionPart] at harguments
  | cons first others ih =>
    have hfirst : first ≠ optionsEnd := by
      rintro rfl
      simp [optionPart_optionsEnd] at harguments
    rw [optionPart_cons hfirst] at harguments
    cases front with
    | nil =>
      obtain ⟨rfl, -⟩ := List.cons.inj harguments
      rw [scan, if_neg hfirst, Argument.ofString_of_isOption hoffends.1, if_neg hoffends.2]
    | cons earlier front =>
      obtain ⟨rfl, hothers⟩ := List.cons.inj harguments
      have hscan := ih hothers fun later hlater => hfront later (List.mem_cons_of_mem _ hlater)
      rw [scan_cons hfirst (hfront first List.mem_cons_self), hscan]
      rfl

/-- If nothing offends, it is noted whether help was asked for, and what the operands are. -/
theorem scan_of_clean {arguments : List String}
    (h : ∀ argument ∈ optionPart arguments, ¬ Offends argument) :
    scan arguments = .ok ⟨decide (helpOption ∈ optionPart arguments), operandsOf arguments⟩ := by
  induction arguments with
  | nil => rfl
  | cons first others ih =>
    by_cases hfirst : first = optionsEnd
    · subst hfirst
      rw [scan_optionsEnd, optionPart_optionsEnd, operandsOf_optionsEnd]
      rfl
    · rw [optionPart_cons hfirst] at h ⊢
      obtain ⟨hclean, hothers⟩ := List.forall_mem_cons.1 h
      rw [scan_cons hfirst hclean, ih hothers, operandsOf_cons hfirst]
      by_cases hoption : IsOption first
      · obtain rfl := eq_helpOption_of_not_offends hoption hclean
        simp [Except.map, hoption]
      · have hother : helpOption ≠ first := by
          rintro rfl
          exact hoption isOption_helpOption
        simp [Except.map, hoption, hother]

end Arguments

/-! ### Requests -/

theorem Request.ofArguments_of_offending {arguments front later : List String}
    {argument : String} (harguments : optionPart arguments = front ++ argument :: later)
    (hfront : ∀ earlier ∈ front, ¬ Offends earlier) (hoffends : Offends argument) :
    Request.ofArguments arguments = .refuse (offence argument) := by
  rw [ofArguments, Arguments.scan_of_offending harguments hfront hoffends]

theorem Request.ofArguments_of_clean {arguments : List String}
    (h : ∀ argument ∈ optionPart arguments, ¬ Offends argument) :
    Request.ofArguments arguments =
      if helpOption ∈ optionPart arguments then .help
      else if operandsOf arguments = [] then .relay
      else .refuse (.extraOperands (operandsOf arguments)) := by
  rw [ofArguments, Arguments.scan_of_clean h]
  by_cases hhelp : helpOption ∈ optionPart arguments
  · simp [hhelp]
  · cases hoperands : operandsOf arguments with
    | nil => simp [hhelp]
    | cons operand others => simp [hhelp]

/-- Behind `--` the help option is an operand like any other. -/
example : Request.ofArguments ["x", "--", "--help"] =
    .refuse (.extraOperands ["x", "--help"]) := by decide

/-- What follows an offending option does not matter, not even where the options end. -/
theorem optionPart_of_offending {arguments front later : List String} {argument : String}
    (harguments : optionPart arguments = front ++ argument :: later) (others : List String) :
    optionPart (front ++ argument :: others) = front ++ argument :: optionPart others := by
  have hends : ∀ earlier ∈ front ++ [argument], decide (earlier ≠ optionsEnd) = true := by
    intro earlier hearlier
    have hmem : earlier ∈ optionPart arguments := by
      rw [harguments, List.append_cons]
      exact List.mem_append_left later hearlier
    exact List.all_eq_true.1 List.all_takeWhile earlier hmem
  rw [optionPart, List.append_cons, List.takeWhile_append_of_pos hends, ← List.append_cons]
  rfl

/-- What offends and comes first is found. -/
theorem clean_or_exists_offending (arguments : List String) :
    (∀ argument ∈ optionPart arguments, ¬ Offends argument) ∨
      ∃ front argument later, optionPart arguments = front ++ argument :: later ∧
        (∀ earlier ∈ front, ¬ Offends earlier) ∧ Offends argument := by
  cases hfind : (optionPart arguments).find? (Offends ·) with
  | none => exact .inl fun argument hmem => by simpa using List.find?_eq_none.1 hfind argument hmem
  | some argument =>
    obtain ⟨hoffends, front, later, harguments, hfront⟩ := List.find?_eq_some_iff_append.1 hfind
    exact .inr ⟨front, argument, later, harguments, by simpa using hfront, by simpa using hoffends⟩

/-- Nothing is asked for but the relay exactly when there are no arguments, or only the one
that ends the options. -/
theorem asks_nothing_iff {arguments : List String} :
    ((∀ argument ∈ optionPart arguments, ¬ Offends argument) ∧
        helpOption ∉ optionPart arguments ∧ operandsOf arguments = []) ↔
      arguments = [] ∨ arguments = [optionsEnd] := by
  constructor
  · rintro ⟨hclean, hhelp, hoperands⟩
    cases arguments with
    | nil => exact .inl rfl
    | cons first others =>
      by_cases hfirst : first = optionsEnd
      · subst hfirst
        rw [operandsOf_optionsEnd] at hoperands
        exact .inr (by rw [hoperands])
      · rw [optionPart_cons hfirst] at hclean hhelp
        rw [operandsOf_cons hfirst] at hoperands
        by_cases hoption : IsOption first
        · obtain rfl := eq_helpOption_of_not_offends hoption (hclean first List.mem_cons_self)
          exact absurd List.mem_cons_self hhelp
        · simp [hoption] at hoperands
  · rintro (rfl | rfl)
    · exact ⟨by simp [optionPart], by simp [optionPart], rfl⟩
    · rw [optionPart_optionsEnd, operandsOf_optionsEnd]
      exact ⟨by simp, by simp, rfl⟩

theorem Request.ofArguments_eq_relay_iff {arguments : List String} :
    Request.ofArguments arguments = .relay ↔ arguments = [] ∨ arguments = [optionsEnd] := by
  rw [← asks_nothing_iff]
  rcases clean_or_exists_offending arguments with hclean |
    ⟨front, argument, later, harguments, hfront, hoffends⟩
  · rw [ofArguments_of_clean hclean]
    by_cases hhelp : helpOption ∈ optionPart arguments
    · simp [hhelp]
    · by_cases hoperands : operandsOf arguments = []
      · rw [if_neg hhelp, if_pos hoperands]
        exact iff_of_true rfl ⟨hclean, hhelp, hoperands⟩
      · simp [hhelp, hoperands]
  · rw [ofArguments_of_offending harguments hfront hoffends]
    constructor
    · simp
    · rintro ⟨hclean, -⟩
      exact absurd hoffends (hclean argument (by simp [harguments]))

/-! ### Runs -/

/-- The message loses nothing when it is written.  An option is quoted, and so it is only operands
that may have escape characters. -/
def UsageError.IsPlain : UsageError → Prop
  | extraOperands operands => ∀ operand ∈ operands, Text.escape ∉ operand.toList
  | _ => True

/-- What it means for a run to refuse its arguments: it makes no calls on the streams, and its
messages and exit code 2 are all it leaves.  They show the option that is refused, or all of the
operands that are.  If the error stream does not take the messages, a fault that does not abort
the program escapes. -/
structure Refuses (invocation : Invocation) (errors : ErrorStream) (s : Streams)
    (reason : UsageError) (outcome : Outcome) : Prop where
  calls_eq : outcome.calls = []
  streams_eq : outcome.streams = s
  report_of_accepting : errors = .accepting → outcome.report =
    ⟨.exited 2, String.join ((reason.messages invocation.programName).map line)⟩
  text_of_accepting : errors = .accepting → reason.IsPlain →
    ∃ front back, outcome.report.text = front ++ " ".intercalate reason.refused ++ back
  report_of_refusing : ∀ fault, errors = .refusing fault → outcome.report =
    ⟨if fault.aborts then .exited 2 else .escaped fault, ""⟩

/-- What it means for a run to show the help text: it reads nothing, and a sink that accepts
everything has the text behind what was there. -/
structure ShowsHelp (invocation : Invocation) (errors : ErrorStream) (s : Streams)
    (outcome : Outcome) : Prop where
  outcome_eq : outcome = showHelp errors invocation.programName s
  not_isRead : ∀ call ∈ outcome.calls, call.isRead = false
  source_eq : outcome.streams.source = s.source
  of_willing : s.sink.plan.Willing → s.sink.plan.cap? = none →
    outcome.streams.sink.bytes =
      s.sink.bytes ++ encodeText (line (helpText invocation.programName)) ∧
    (s.sink.plan.flushFault? = none → outcome.report = { ending := .exited 0 })

variable {arguments : List String}

theorem announce_accepting (messages : List String) (code : Nat) :
    announce .accepting messages code = ⟨.exited code, String.join (messages.map line)⟩ := by
  have hsaid : (ErrorStream.accepting.say messages).1 = String.join (messages.map line) := by
    induction messages with
    | nil => rfl
    | cons message messages ih =>
      rw [List.map_cons, String.join_cons, ← ih]
      rfl
  rw [announce, say_accepting_snd, hsaid]

theorem escape_notMem_intercalate {texts : List String}
    (h : ∀ text ∈ texts, Text.escape ∉ text.toList) :
    Text.escape ∉ (" ".intercalate texts).toList := by
  have hblank : Text.escape ∉ " ".toList := by decide
  induction texts with
  | nil => simp
  | cons text texts ih =>
    obtain ⟨htext, hothers⟩ := List.forall_mem_cons.1 h
    cases texts with
    | nil => simpa using htext
    | cons other texts =>
      rw [String.intercalate_cons_cons, String.toList_append, String.toList_append,
        List.mem_append, List.mem_append, not_or, not_or]
      exact ⟨⟨htext, hblank⟩, ih hothers⟩

theorem UsageError.IsPlain.escape_notMem {reason : UsageError} (h : reason.IsPlain) :
    ∀ text ∈ reason.refused, Text.escape ∉ text.toList := by
  cases reason with
  | valueForHelp => simpa [refused] using Text.escape_notMem_quoted helpOption
  | unknownOption name suggestsHelp => simpa [refused] using Text.escape_notMem_quoted name
  | extraOperands operands => exact h

/-- The message is written as it is, and so shows what is refused. -/
theorem UsageError.IsPlain.exists_text_eq {reason : UsageError} (h : reason.IsPlain)
    (program : String) : ∃ front back,
      String.join ((reason.messages program).map line) =
        front ++ " ".intercalate reason.refused ++ back := by
  obtain ⟨front, back, hmessage, hfront, hback⟩ := reason.exists_message_eq
  obtain ⟨before, hmessages⟩ := reason.exists_messages_eq program
  have hplain : plain reason.message = reason.message := by
    refine plain_of_not_mem ?_
    rw [hmessage, String.toList_append, String.toList_append, List.mem_append, List.mem_append,
      not_or, not_or]
    exact ⟨⟨hfront, escape_notMem_intercalate h.escape_notMem⟩, hback⟩
  refine ⟨String.join (before.map line) ++ "Error: " ++ front, back ++ "\n", ?_⟩
  rw [hmessages, List.map_append, String.join_append, List.map_cons, List.map_nil, line_error,
    hplain, hmessage]
  simp [String.append_assoc]

theorem refuses_of_refuse {reason : UsageError}
    (h : Request.ofArguments arguments = .refuse reason) (invocation : Invocation)
    (errors : ErrorStream) (s : Streams) :
    Refuses invocation errors s reason (run invocation arguments errors s) := by
  rw [run_of_refuse h]
  refine ⟨rfl, rfl, ?_, ?_, ?_⟩
  · rintro rfl
    exact announce_accepting _ 2
  · rintro rfl hplain
    rw [announce_accepting]
    exact hplain.exists_text_eq invocation.programName
  · rintro fault rfl
    obtain ⟨before, hmessages⟩ := reason.exists_messages_eq invocation.programName
    rw [hmessages]
    cases before with
    | nil => rfl
    | cons message before => rfl

theorem showsHelp_of_help (h : Request.ofArguments arguments = .help) (invocation : Invocation)
    (errors : ErrorStream) (s : Streams) :
    ShowsHelp invocation errors s (run invocation arguments errors s) := by
  rw [run_of_help h]
  have hprints := prints_printHelp invocation.programName s
  refine ⟨rfl, ?_, s.source_print Streams.bufferSize _, ?_⟩
  · intro call hcall
    rcases hprints.write_or_flush hcall with ⟨x, fault?, rfl⟩ | ⟨fault?, rfl⟩
    · rfl
    · rfl
  · intro hplan hcap
    obtain ⟨hends, hfault, hbytes⟩ := hprints.of_willing hplan hcap
    refine ⟨hbytes, fun hflush => ?_⟩
    rw [hflush] at hfault
    exact showHelp_of_success hends hfault errors

/-- Unless the relay was asked for, nothing is read. -/
theorem reads_nothing_of_request_ne (h : Request.ofArguments arguments ≠ .relay)
    (invocation : Invocation) (errors : ErrorStream) (s : Streams) :
    let outcome := run invocation arguments errors s
    (∀ call ∈ outcome.calls, call.isRead = false) ∧ outcome.streams.source = s.source := by
  cases hrequest : Request.ofArguments arguments with
  | relay => exact absurd hrequest h
  | help =>
    have hshows := showsHelp_of_help hrequest invocation errors s
    exact ⟨hshows.not_isRead, hshows.source_eq⟩
  | refuse reason =>
    have hrefuses := refuses_of_refuse hrequest invocation errors s
    refine ⟨?_, congrArg Streams.source hrefuses.streams_eq⟩
    rw [hrefuses.calls_eq]
    simp

end FinalNewline.Command
