import LineTables.CommandLine.Run
import LineTables.Proofs.Checks
import LineTables.Proofs.Text.Cutting

/-!
# Lines as arguments and as input

Lines that are written under one another and each ended in the same way are read back from the input as
they are, also empty ones. So it makes no difference whether a run takes its lines from the arguments or
from the input.
-/

set_option autoImplicit false

namespace LineTables.CommandLine
open Checks Text

def lineEnds : List Text := [['\n'], ['\r', '\n'], ['\r']]

def ended (lineEnd : Text) (lines : List Text) : Text := lines.flatMap (· ++ lineEnd)

theorem ended_cons (lineEnd line : Text) (lines : List Text) :
    ended lineEnd (line :: lines) = line ++ (lineEnd ++ ended lineEnd lines) := by
  rw [ended, List.flatMap_cons, List.append_assoc]
  rfl

theorem unifiedLineEnds_append {line : Text} (h : '\r' ∉ line) (rest : Text) :
    unifiedLineEnds (line ++ rest) = line ++ unifiedLineEnds rest := by
  induction line with
  | nil => rfl
  | cons c line ih =>
    have hc : c ≠ '\r' := fun heq => h (heq ▸ List.mem_cons_self)
    have hline : '\r' ∉ line := fun hm => h (List.mem_cons_of_mem _ hm)
    rw [List.cons_append, unifiedLineEnds.eq_3 _ _ fun _ heq _ => hc heq, if_neg hc, ih hline]
    rfl

theorem unifiedLineEnds_lineEnd {lineEnd : Text} (h : lineEnd ∈ lineEnds) {rest : Text}
    (hrest : lineEnd = ['\r'] → rest.head? ≠ some '\n') :
    unifiedLineEnds (lineEnd ++ rest) = '\n' :: unifiedLineEnds rest := by
  have hcases : lineEnd = ['\n'] ∨ lineEnd = ['\r', '\n'] ∨ lineEnd = ['\r'] := by
    simpa [lineEnds] using h
  rcases hcases with rfl | rfl | rfl
  · exact unifiedLineEnds_append (by decide : '\r' ∉ ['\n']) rest
  · rfl
  · refine unifiedLineEnds.eq_3 '\r' rest fun more _ heq => hrest rfl ?_
    rw [heq, List.head?_cons]

theorem head?_ended_return {lines : List Text} (h : ∀ line ∈ lines, '\n' ∉ line) :
    (ended ['\r'] lines).head? ≠ some '\n' := by
  cases lines with
  | nil => nofun
  | cons line lines =>
    rw [ended_cons]
    cases line with
    | nil => simp
    | cons c line =>
      intro heq
      cases heq
      exact h _ List.mem_cons_self List.mem_cons_self

theorem unifiedLineEnds_ended {lineEnd : Text} (hend : lineEnd ∈ lineEnds) {lines : List Text}
    (hreturn : ∀ line ∈ lines, '\r' ∉ line) (hfeed : ∀ line ∈ lines, '\n' ∉ line) :
    unifiedLineEnds (ended lineEnd lines) = ended ['\n'] lines := by
  induction lines with
  | nil => rfl
  | cons line lines ih =>
    have hlater : ∀ line ∈ lines, '\n' ∉ line := fun other hm =>
      hfeed other (List.mem_cons_of_mem _ hm)
    have hrest : lineEnd = ['\r'] → (ended lineEnd lines).head? ≠ some '\n' := by
      rintro rfl
      exact head?_ended_return hlater
    rw [ended_cons, ended_cons, unifiedLineEnds_append (hreturn line List.mem_cons_self),
      unifiedLineEnds_lineEnd hend hrest,
      ih (fun other hm => hreturn other (List.mem_cons_of_mem _ hm)) hlater]
    rfl

theorem cutAt_ended {lines : List Text} (h : ∀ line ∈ lines, '\n' ∉ line) :
    (ended ['\n'] lines).cutAt '\n' = lines ++ [[]] := by
  induction lines with
  | nil => rfl
  | cons line lines ih =>
    rw [ended_cons, cutAt, List.singleton_append,
      cutWhere_append_cons (not_separates (h line List.mem_cons_self)) rfl]
    exact congrArg (line :: ·) (ih fun other hm => h other (List.mem_cons_of_mem _ hm))

theorem inputLines_ended {lineEnd : Text} (hend : lineEnd ∈ lineEnds) {lines : List Text}
    (hreturn : ∀ line ∈ lines, '\r' ∉ line) (hfeed : ∀ line ∈ lines, '\n' ∉ line) :
    inputLines (ended lineEnd lines) = lines := by
  rw [inputLines, unifiedLineEnds_ended hend hreturn hfeed, cutAt_ended hfeed]
  simp

theorem note_append {scan longer : Except Ending (List Given × List Text)} {rest : List Text}
    (hscan : ∀ more, scan = .ok (more, []) → longer = .ok (more, rest)) {first : Given}
    {given : List Given}
    (h : (do let (more, left) ← scan; return (first :: more, left)) = Except.ok (given, [])) :
    (do let (more, left) ← longer; return (first :: more, left)) = Except.ok (given, rest) := by
  rw [bind_ok_iff] at h
  obtain ⟨⟨more, left⟩, hmore, h⟩ := h
  cases h
  rw [hscan more hmore]
  rfl

theorem scanOptions_append {options rest : List Text} (hrest : scanOptions none rest = .ok ([], rest))
    {waiting : Option ValueOption} {given : List Given}
    (h : scanOptions waiting options = .ok (given, [])) :
    scanOptions waiting (options ++ rest) = .ok (given, rest) := by
  induction options generalizing waiting given with
  | nil =>
    cases waiting with
    | none =>
      cases h
      exact hrest
    | some option => cases h
  | cons argument options ih =>
    rw [List.cons_append]
    cases waiting with
    | some option =>
      rw [scanOptions] at h ⊢
      exact note_append (fun more hmore => ih hmore) h
    | none =>
      rw [scanOptions] at h ⊢
      split at h
      · rename_i hdashes
        -- Two dashes leave over what stands behind them, so here the options end with them.
        cases h
        rw [if_pos hdashes]
        rfl
      · rename_i hdashes
        rw [if_neg hdashes]
        split at h
        · rename_i hoption
          rw [if_pos hoption]
          dsimp only at h ⊢
          split at h
          · exact note_append (fun more hmore => ih hmore) h
          · exact ih h
          · exact note_append (fun more hmore => ih hmore) h
          · cases h
        · cases h

theorem interpret_append (isFile : Text → Bool) {options : List Text} {given : List Given}
    (hoptions : scanOptions none options = .ok (given, [])) (rest : List Text) {asked : Command}
    (hrest : scanOptions none rest = .ok ([], rest)) (hcommand : command rest = .ok asked) :
    interpret isFile (options ++ rest) = (settings isFile given).map (·, asked) := by
  have hne : rest ≠ [] := by
    rintro rfl
    cases hcommand
  have hsome : (options ++ rest).isEmpty = false :=
    List.isEmpty_eq_false_iff.2 (List.append_ne_nil_of_right_ne_nil options hne)
  rw [interpret, hsome, scanOptions_append hrest hoptions]
  show (settings isFile given >>= fun settings => command rest >>= fun asked =>
    pure (settings, asked)) = _
  rw [hcommand]
  cases settings isFile given <;> rfl

theorem command_run {arguments lines : List Text}
    (h : scanArguments arguments = .ok (lines, false)) (hne : lines ≠ []) :
    command ("run".toList :: arguments) = .ok (.run lines) := by
  have hname : "run".toList ≠ "shell".toList := by decide
  rw [command.eq_def]
  dsimp only
  rw [if_neg hname, if_pos rfl, h]
  show (if lines.isEmpty then throw Ending.misuse else pure (Command.run lines)) = _
  rw [if_neg (by simpa using hne)]
  rfl

theorem run_eq_of_lines {files : Directory} {current arguments others : List Text}
    {input text : Text} {chosen : Except Ending Settings} {asked other : Command}
    (h : interpret (files.isFile current) arguments = chosen.map (·, asked))
    (ho : interpret (files.isFile current) others = chosen.map (·, other))
    (hlines : asked.lines input = other.lines text) :
    run files current arguments input = run files current others text := by
  rw [run, run, h, ho]
  cases chosen with
  | error ending => rfl
  | ok settings => simp only [Except.map, hlines]

/-- A run that takes its lines from the arguments does the same as one with the same options that takes
them from the input, where each has the same end. -/
theorem run_eq_shell (files : Directory) (current : List Text) {options arguments lines : List Text}
    {given : List Given} {lineEnd : Text} (hoptions : scanOptions none options = .ok (given, []))
    (harguments : scanArguments arguments = .ok (lines, false)) (hne : lines ≠ [])
    (hreturn : ∀ line ∈ lines, '\r' ∉ line) (hfeed : ∀ line ∈ lines, '\n' ∉ line)
    (hend : lineEnd ∈ lineEnds) (input : Text) :
    run files current (options ++ "run".toList :: arguments) input =
      run files current (options ++ ["shell".toList]) (ended lineEnd lines) := by
  have hrun := interpret_append (files.isFile current) hoptions ("run".toList :: arguments) rfl
    (command_run harguments hne)
  have hasked : command ["shell".toList] = .ok .shell := rfl
  have hshell := interpret_append (files.isFile current) hoptions ["shell".toList] rfl hasked
  exact run_eq_of_lines hrun hshell (inputLines_ended hend hreturn hfeed).symm

theorem run_eq_shell_past_end :
    let options := ["--data-dir".toList, "d/e".toList, "--strict-schema".toList]
    let lines := ["CREATE_TABLE t (c STRING)".toList, [], "--help".toList, "STOP".toList,
      "SHOW_TABLES".toList]
    run Directory.empty ["home".toList] (options ++ "run".toList :: "--".toList :: lines) [] =
      run Directory.empty ["home".toList] (options ++ ["shell".toList]) (ended ['\r'] lines) := by
  intro options lines
  have hoptions : scanOptions none options =
      .ok ([.value .dataDir "d/e".toList, .strict], []) := by
    rfl
  have harguments : scanArguments ("--".toList :: lines) = .ok (lines, false) := by
    rfl
  exact run_eq_shell _ _ hoptions harguments (by decide) (by decide) (by decide) (by decide) []

end LineTables.CommandLine
