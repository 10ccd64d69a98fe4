import FinalNewline.Proofs.Scans
import FinalNewline.Proofs.Success

/-!
# What is reported of a fault

A fault of the system that ends a transfer is reported in one line.  The line is put together
before it loses its control sequences, and yet the message alone is affected: what stands in front
of it has no escape character, and the line feed behind it belongs to no control sequence, not even
to one that the message leaves unfinished.

So the report is as faithful to the message as the deletion is.  Nothing but control sequences is
deleted, nothing is deleted twice or moved, and a message in which none of them stands is reported
as it is.

## Main Results

* `run_reports` — the line in which a fault is reported
-/

namespace FinalNewline.Command

open Text

/-- A run whose transfer fails, with a fault of the system that is no broken pipe, reports the
fault. -/
theorem report_of_transferFails (invocation : Invocation) {arguments : List String} {s : Streams}
    {calls : List Call} {fault : Fault} (hrequest : Request.ofArguments arguments = .relay)
    (hfails : TransferFails s calls fault) (hsystem : fault.isSystem)
    (hpipe : ¬ fault.isBrokenPipe) :
    (run invocation arguments .accepting s).report =
      ⟨.exited 1, "Error: " ++ plain fault.message ++ "\n"⟩ := by
  rw [run_of_relay hrequest, body_of_transferFails hfails, recover_of_isSystem hsystem hpipe]

/-- **The line in which a fault is reported** is that of its message without control sequences.
The text left is determined by the control sequences alone: at each position at most one of them
starts, so they can be found by a scan that looks at each character once.  It makes no difference
whether the whole line loses them or only the message.  What is deleted are control sequences, all
else is kept in order, and nothing is deleted if and only if none stands in the text, as is the
case without an escape character. -/
theorem run_reports :
    (∀ (invocation : Invocation) (arguments : List String) (s : Streams) (calls : List Call)
      (fault : Fault), Request.ofArguments arguments = .relay → TransferFails s calls fault →
      fault.isSystem → ¬ fault.isBrokenPipe →
      (run invocation arguments .accepting s).report =
        ⟨.exited 1,
          "Error: " ++ String.ofList (removeControlSequences fault.message.toList) ++ "\n"⟩) ∧
    (∀ text left, Strips controlSequence text left ↔ left = removeControlSequences text) ∧
    (∀ (text : List Char) (position : Nat) (found other : List Char),
      found ∈ controlSequence.matches' → other ∈ controlSequence.matches' →
      found <+: text.drop position → other <+: text.drop position → found = other) ∧
    (∀ text, scan .outside [] text = removeControlSequences text) ∧
    (∀ message : String,
      String.ofList (removeControlSequences ("Error: " ++ message ++ "\n").toList) =
        "Error: " ++ String.ofList (removeControlSequences message.toList) ++ "\n") ∧
    (∀ text, ∃ (cuts : List (List Char × List Char)) (last : List Char),
      text = cuts.flatMap (fun cut => cut.1 ++ cut.2) ++ last ∧
      removeControlSequences text = cuts.flatMap Prod.fst ++ last ∧
      ∀ cut ∈ cuts, cut.2 ∈ controlSequence.matches') ∧
    (∀ text, removeControlSequences text = text ↔
      ∀ found ∈ controlSequence.matches', ¬ found <:+: text) ∧
    (∀ text, escape ∉ text → removeControlSequences text = text) := by
  refine ⟨?_, fun text left => strips_iff, ?_, scan_eq, line_error, ?_,
    fun text => removeControlSequences_eq_self_iff, ?_⟩
  · intro invocation arguments s calls fault hrequest hfails hsystem hpipe
    exact report_of_transferFails invocation hrequest hfails hsystem hpipe
  · intro text position found other hfound hother hfoundText hotherText
    exact controlSequence_unique hfound hother hfoundText hotherText
  · intro text
    exact (strips_removeControlSequences text).exists_cuts
  · intro text htext
    have hkept := removeControlSequences_append_of_not_mem htext []
    simpa using hkept

/-- A control sequence stands inside another that is thereby no longer one.  The inner one is
deleted, the rest closes up to a new one, which stays, and so does the one that is left unfinished
at the end of the message. -/
theorem run_reports_closed_gap :
    let fault : Fault := .system .general (.text "\x1b[\x1b[31;1 mred\x1b[0")
    let s : Streams := { source := [.data [0x61], .fault fault] }
    let arguments := [optionsEnd]
    Request.ofArguments arguments = .relay ∧ TransferFails s (relay s).calls fault ∧
      fault.isSystem ∧ ¬ fault.isBrokenPipe ∧
      (run .byModule arguments .accepting s).report =
        ⟨.exited 1, "Error: \x1b[red\x1b[0\n"⟩ ∧
      escape ∉ "[31m".toList ∧ removeControlSequences "[31m".toList = "[31m".toList := by
  intro fault s arguments
  obtain ⟨hreports, -, -, -, -, -, -, hkept⟩ := run_reports
  have hrequest : Request.ofArguments arguments = .relay := by decide
  have hfails : TransferFails s (relay s).calls fault := .byRelay (by decide +kernel)
  have hreport := hreports .byModule arguments s _ fault hrequest hfails rfl (by decide)
  refine ⟨hrequest, hfails, rfl, by decide, hreport.trans ?_, by decide, hkept _ (by decide)⟩
  decide +kernel

end FinalNewline.Command
