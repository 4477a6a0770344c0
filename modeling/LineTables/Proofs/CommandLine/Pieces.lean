import LineTables.Proofs.CommandLine.Agreement
import LineTables.Proofs.CommandLine.Serving

/-!
# Lines as they come

A program that waits for its input does not see it as a whole: it reads a piece up to a line feed, serves
the lines of this piece, and reads on if none of them ended the run. What it has served in the end is what
is served of the whole input, since a line feed ends a line wherever the input is cut behind it.
-/

set_option autoImplicit false

namespace LineTables

namespace Database

def serveGroups (options : Options) (db : Database) : List (List Text) → Step (List Text)
  | [] => db.serve options []
  | lines :: groups =>
    match db.answerUntilFinal options lines with
    | (true, step) => step
    | (false, step) =>
      let rest := step.after.serveGroups options groups
      ⟨step.outcome ++ rest.outcome, rest.after, step.events ++ rest.events⟩

variable (options : Options)

theorem answerUntilFinal_append (db : Database) (lines more : List Text) :
    db.answerUntilFinal options (lines ++ more) =
      match db.answerUntilFinal options lines with
      | (true, step) => (true, step)
      | (false, step) =>
        let (ended, rest) := step.after.answerUntilFinal options more
        (ended, ⟨step.outcome ++ rest.outcome, rest.after, step.events ++ rest.events⟩) := by
  induction lines generalizing db with
  | nil => rfl
  | cons line lines ih =>
    rw [List.cons_append, answerUntilFinal, answerUntilFinal]
    dsimp only
    split
    · rfl
    · rw [ih]
      obtain ⟨ended, step⟩ := (db.process options line).after.answerUntilFinal options lines
      cases ended with
      | true => rfl
      | false => simp [List.append_assoc]

theorem serve_append (db : Database) (lines more : List Text) :
    db.serve options (lines ++ more) =
      match db.answerUntilFinal options lines with
      | (true, step) => step
      | (false, step) =>
        let rest := step.after.serve options more
        ⟨step.outcome ++ rest.outcome, rest.after, step.events ++ rest.events⟩ := by
  rw [serve, answerUntilFinal_append]
  obtain ⟨ended, step⟩ := db.answerUntilFinal options lines
  cases ended with
  | true => rfl
  | false =>
    dsimp only
    rw [serve]
    obtain ⟨ended, rest⟩ := step.after.answerUntilFinal options more
    cases ended with
    | true => rfl
    | false => simp [List.append_assoc]

theorem serveGroups_eq (db : Database) (groups : List (List Text)) :
    db.serveGroups options groups = db.serve options groups.flatten := by
  induction groups generalizing db with
  | nil => rfl
  | cons lines groups ih =>
    rw [serveGroups, List.flatten_cons, serve_append]
    obtain ⟨ended, step⟩ := db.answerUntilFinal options lines
    cases ended with
    | true => rfl
    | false =>
      dsimp only
      rw [ih]

end Database

namespace CommandLine
open Text

theorem exists_unifiedLineEnds (t : Text) :
    ∃ u : Text, ∀ rest, unifiedLineEnds (t ++ '\n' :: rest) = u ++ '\n' :: unifiedLineEnds rest := by
  induction t using unifiedLineEnds.induct with
  | case1 => exact ⟨[], fun rest => unifiedLineEnds_append (by decide : '\r' ∉ ['\n']) rest⟩
  | case2 t ih =>
    obtain ⟨u, hu⟩ := ih
    exact ⟨'\n' :: u, fun rest => congrArg ('\n' :: ·) (hu rest)⟩
  | case3 c t hother ih =>
    by_cases hreturn : c = '\r' ∧ t = []
    · -- A carriage return right before the line feed ends the line together with it.
      obtain ⟨rfl, rfl⟩ := hreturn
      exact ⟨[], fun rest => rfl⟩
    · obtain ⟨u, hu⟩ := ih
      refine ⟨(if c = '\r' then '\n' else c) :: u, fun rest => ?_⟩
      rw [List.cons_append, unifiedLineEnds.eq_3, hu]
      · rfl
      · intro more hc hrest
        cases t with
        | nil => exact hreturn ⟨hc, rfl⟩
        | cons d t =>
          cases hrest
          exact hother t hc rfl

theorem inputLines_append (t rest : Text) :
    inputLines (t ++ ['\n'] ++ rest) = inputLines (t ++ ['\n']) ++ inputLines rest := by
  obtain ⟨u, hu⟩ := exists_unifiedLineEnds t
  have hlines : ∀ rest, inputLines (t ++ '\n' :: rest) = u.cutAt '\n' ++ inputLines rest := by
    intro rest
    have hcut : (u ++ '\n' :: unifiedLineEnds rest).cutAt '\n' =
        u.cutAt '\n' ++ (unifiedLineEnds rest).cutAt '\n' := cutWhere_append rfl u _
    have hne := cutAt_ne_nil '\n' (unifiedLineEnds rest)
    rw [inputLines, inputLines, hu, hcut, List.getLast?_append_of_ne_nil _ hne, List.dropLast_append_of_ne_nil hne]
    split <;> rfl
  rw [List.append_assoc, List.singleton_append, hlines, hlines]
  simp [inputLines, unifiedLineEnds, cutAt, cutWhere]

theorem inputLines_flatten {pieces : List Text}
    (h : ∀ piece ∈ pieces.dropLast, ∃ t, piece = t ++ ['\n']) :
    inputLines pieces.flatten = (pieces.map inputLines).flatten := by
  induction pieces with
  | nil => rfl
  | cons piece pieces ih =>
    cases pieces with
    | nil => simp
    | cons next pieces =>
      obtain ⟨t, rfl⟩ := h piece List.mem_cons_self
      rw [List.flatten_cons, inputLines_append, ih fun p hm => h p (List.mem_cons_of_mem _ hm)]
      rfl

/-- The lines of a command as they come: those of each piece of the input together, and those among the
arguments one by one. -/
def Command.groups (pieces : List Text) : Command → List (List Text)
  | .shell => pieces.map inputLines
  | .run lines => lines.map ([·])

theorem flatten_groups {pieces : List Text}
    (h : ∀ piece ∈ pieces.dropLast, ∃ t, piece = t ++ ['\n']) (command : Command) :
    (command.groups pieces).flatten = command.lines pieces.flatten := by
  cases command with
  | shell => exact (inputLines_flatten h).symm
  | run lines =>
    show (lines.map ([·])).flatten = lines
    induction lines with
    | nil => rfl
    | cons line lines ih => exact congrArg (line :: ·) ih

/-- A run leaves what is left when its lines are served as they come, where no piece of the input but the
last one ends within a line. -/
theorem run_of_pieces {files made : Directory} {current arguments : List Text} {folder : Text}
    {settings : Settings} {command : Command} {db : Database} {events : List Event}
    (hasked : interpret (files.isFile current) arguments = .ok (settings, command))
    (hmade : files.makePath current 0 (Path.shown settings.dataDir) = (made, some folder))
    (hopen : Database.open? ⟨Path.shown settings.dataDir, '/' :: folder⟩
      (made.subdirectory folder) = some (db, events))
    {pieces : List Text} (hpieces : ∀ piece ∈ pieces.dropLast, ∃ t, piece = t ++ ['\n']) :
    let step := db.serveGroups ⟨settings.strict⟩ (command.groups pieces)
    run files current arguments pieces.flatten = ⟨0, step.outcome.flatMap printed,
      Event.atLeast settings.level (events ++ step.events),
      made.withSubdirectory folder step.after.directory⟩ := by
  intro step
  rw [run_of_opened hasked hmade hopen, ← flatten_groups hpieces, ← Database.serveGroups_eq]

end CommandLine
end LineTables
