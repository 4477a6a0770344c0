import Mathlib.Algebra.BigOperators.Group.List.Basic
import Mathlib.Algebra.Ring.Nat
import LineTables.Proofs.Database.Actions
import LineTables.Proofs.Database.Course

/-!
# Accounts of rows

As long as a table stands, the number of its rows is told by the answers: each insertion that succeeds
adds one row, and each deletion takes away as many as it says. No other turn changes the number, and a
line whose table was removed while it waited answers neither, so no row is lost or counted twice however
the lines come between one another.
-/

set_option autoImplicit false

namespace LineTables

namespace Turn

/-- The turn inserted a row into the table: its line asks for it, and was answered with success. -/
def inserts (name : Text) (turn : Turn) : Bool :=
  match Statement.parse turn.line with
  | .ok (.onTable table (.insert _)) => table = name ∧ turn.answer = "SUCCESS".toList
  | _ => false

def deletedCount (answer : Text) : Nat :=
  match Text.after? "DELETED ".toList answer with
  | some digits => Nat.ofDigitChars 10 digits 0
  | none => 0

/-- How many rows the turn deleted from the table: its line asks for it, and the answer tells how many. -/
def deletes (name : Text) (turn : Turn) : Nat :=
  match Statement.parse turn.line with
  | .ok (.onTable table (.delete _)) => if table = name then deletedCount turn.answer else 0
  | _ => 0

theorem deletedCount_deleted (count : Nat) : deletedCount (Reply.deleted count).text = count := by
  have hdigits : Text.after? "DELETED ".toList (Reply.deleted count).text =
      some (Text.ofNat count) := Text.after?_append _ _
  simp only [deletedCount, hdigits]
  exact Nat.ofDigitChars_ten_toDigits

theorem deletedCount_of_mem_marks : ∀ answer ∈ Refusal.marks, deletedCount answer = 0 := by
  decide

theorem inserts_of_success {line name : Text} {literals : List Text}
    (h : Statement.parse line = .ok (.onTable name (.insert literals))) :
    inserts name ⟨line, "SUCCESS".toList⟩ = true := by
  simp only [inserts, h, and_self, decide_true]

theorem inserts_of_other {line name : Text}
    (h : ∀ literals, Statement.parse line ≠ .ok (.onTable name (.insert literals)))
    (answer : Text) : inserts name ⟨line, answer⟩ = false := by
  rw [inserts]
  split
  · rename_i table literals hparse
    apply decide_eq_false
    rintro ⟨rfl, -⟩
    exact h literals hparse
  · rfl

theorem deletes_of_other {line name : Text}
    (h : ∀ condition, Statement.parse line ≠ .ok (.onTable name (.delete condition)))
    (answer : Text) : deletes name ⟨line, answer⟩ = 0 := by
  rw [deletes]
  split
  · rename_i table condition hparse
    apply if_neg
    rintro rfl
    exact h condition hparse
  · rfl

theorem inserts_of_mem_marks {answer : Text} (h : answer ∈ Refusal.marks) (line name : Text) :
    inserts name ⟨line, answer⟩ = false := by
  have hanswer : answer ≠ "SUCCESS".toList := by
    rintro rfl
    exact absurd h (by decide)
  rw [inserts]
  split
  · exact decide_eq_false fun h => hanswer h.2
  · rfl

theorem deletes_of_mem_marks {answer : Text} (h : answer ∈ Refusal.marks) (line name : Text) :
    deletes name ⟨line, answer⟩ = 0 := by
  rw [deletes]
  split
  · rw [deletedCount_of_mem_marks answer h, ite_self]
  · rfl

end Turn

namespace Database

variable {options : Options} {db after : Database} {line name : Text} {t u : Table Value}

theorem Effect.get?_of_other {s : Statement} (hf : db.catalog.Filed) (h : db.Effect s after)
    (hs : ∀ action, s ≠ .onTable name action) (found : db.catalog.get? name = some t)
    (later : after.catalog.get? name = some u) : u = t := by
  have hupdate : ∀ v : Table Value, name ≠ v.name →
      after.catalog = (db.withTable v).catalog → u = t := by
    intro v hname hafter
    rw [hafter, withTable_catalog, Catalog.get?_update_of_ne _ hname, found] at later
    exact (Option.some.inj later).symm
  cases h with
  | kept => exact Option.some.inj (later.symm.trans found)
  | @created table columns _ fresh =>
    refine hupdate ⟨table, columns, []⟩ ?_ rfl
    rintro rfl
    cases found.symm.trans fresh
  | @changed other action v change hfound =>
    refine hupdate { v with rows := change.applied v.rows } ?_ rfl
    rintro rfl
    exact hs action (by rw [hf.name_of_get? hfound])
  | flushed =>
    rw [flush_catalog] at later
    exact Option.some.inj (later.symm.trans found)
  | purged => cases later

theorem process_rows (hf : db.catalog.Filed) {action : Action}
    (hparse : Statement.parse line = .ok (.onTable name action))
    (found : db.catalog.get? name = some t)
    (later : (db.process options line).after.catalog.get? name = some u) :
    u.rows.length + Turn.deletes name ⟨line, (db.process options line).outcome⟩ =
      t.rows.length +
        if Turn.inserts name ⟨line, (db.process options line).outcome⟩ then 1 else 0 := by
  rcases process_onTable options hf hparse found with
    ⟨refusal, -, hseen⟩ | ⟨columns, condition, rfl, hafter⟩ | ⟨change, hcheck, hseen⟩
  · obtain ⟨houtcome, hafter⟩ := Prod.mk.inj hseen
    rw [hafter, found] at later
    cases later
    rw [houtcome, Turn.deletes_of_mem_marks refusal.mark_mem,
      Turn.inserts_of_mem_marks refusal.mark_mem, if_neg Bool.false_ne_true]
  · rw [hafter, found] at later
    cases later
    rw [Turn.deletes_of_other (by simp [hparse]), Turn.inserts_of_other (by simp [hparse]),
      if_neg Bool.false_ne_true]
  · obtain ⟨houtcome, hafter⟩ := Prod.mk.inj hseen
    rw [hafter, get?_changed (hf.name_of_get? found) found change] at later
    cases later
    have hlength := change.length_applied t.rows
    rw [houtcome]
    cases Action.makes_of_check hcheck with
    | append =>
      rw [Turn.deletes_of_other (by simp [hparse])]
      show _ = _ + if Turn.inserts name ⟨line, "SUCCESS".toList⟩ then 1 else 0
      rw [if_pos (Turn.inserts_of_success hparse)]
      exact hlength
    | assign =>
      rw [Turn.deletes_of_other (by simp [hparse]), Turn.inserts_of_other (by simp [hparse]),
        if_neg Bool.false_ne_true]
      exact hlength
    | remove condition =>
      have hdeletes : Turn.deletes name ⟨line, (Change.reply (Change.touched t.rows
          (.remove (Condition.ofText condition))) (.remove (Condition.ofText condition))).text⟩ =
          Change.dropped t.rows (.remove (Condition.ofText condition)) := by
        simp only [Turn.deletes, hparse, if_true, Change.reply, Change.dropped]
        split
        · rename_i hnone
          exact hnone.symm
        · exact Turn.deletedCount_deleted _
      rw [hdeletes, Turn.inserts_of_other (by simp [hparse]), if_neg Bool.false_ne_true]
      exact hlength

theorem Acts.rows (hs : db.catalog.Sound) {turn : Turn} (h : db.Acts options turn after)
    (found : db.catalog.get? name = some t) (later : after.catalog.get? name = some u) :
    u.rows.length + turn.deletes name = t.rows.length + if turn.inserts name then 1 else 0 := by
  -- The turns that are not about the rows of this table count on neither side.
  have hother : ∀ {line answer : Text}, u = t →
      (∀ literals, Statement.parse line ≠ .ok (.onTable name (.insert literals))) →
      (∀ condition, Statement.parse line ≠ .ok (.onTable name (.delete condition))) →
      u.rows.length + Turn.deletes name ⟨line, answer⟩ =
        t.rows.length + if Turn.inserts name ⟨line, answer⟩ then 1 else 0 := by
    rintro line answer rfl hinsert hdelete
    rw [Turn.inserts_of_other hinsert, Turn.deletes_of_other hdelete, if_neg Bool.false_ne_true]
  cases h with
  | whole line =>
    by_cases hown : ∃ action, Statement.parse line = .ok (.onTable name action)
    · obtain ⟨action, hparse⟩ := hown
      exact process_rows hs.filed hparse found later
    · refine hother ?_ (fun literals h => hown ⟨_, h⟩) (fun condition h => hown ⟨_, h⟩)
      rcases executeLine_effect options hs.filed line with hkept | ⟨s, hparse, heffect⟩
      · have hafter : (db.process options line).after = db := hkept
        rw [hafter] at later
        exact Option.some.inj (later.symm.trans found)
      · refine heffect.get?_of_other hs.filed ?_ found later
        rintro action rfl
        exact hown ⟨action, hparse⟩
  | printed parsed answer =>
    exact hother (Option.some.inj (later.symm.trans found)) (by simp [parsed]) (by simp [parsed])
  | refused line mark =>
    cases later.symm.trans found
    rw [Turn.deletes_of_mem_marks mark, Turn.inserts_of_mem_marks mark, if_neg Bool.false_ne_true]

theorem Follows.rows (hs : db.catalog.Sound) {moments : List Moment}
    (h : db.Follows options moments) (found : db.catalog.get? name = some t)
    (stays : ∀ moment ∈ moments, (moment.after.catalog.get? name).isSome = true) :
    ∃ u, (db.atEnd moments).catalog.get? name = some u ∧
      u.rows.length + (moments.map (·.turn.deletes name)).sum =
        t.rows.length + moments.countP (·.turn.inserts name) := by
  induction moments generalizing db t with
  | nil => exact ⟨t, found, rfl⟩
  | cons moment moments ih =>
    obtain ⟨hstays, hlater⟩ := List.forall_mem_cons.1 stays
    obtain ⟨v, hv⟩ := Option.isSome_iff_exists.1 hstays
    obtain ⟨u, hu, hrest⟩ := ih (h.1.sound hs) h.2 hv hlater
    have hfirst := h.1.rows hs found hv
    refine ⟨u, hu, ?_⟩
    rw [List.map_cons, List.sum_cons, List.countP_cons]
    omega

end Database

namespace Session

end Session
end LineTables
