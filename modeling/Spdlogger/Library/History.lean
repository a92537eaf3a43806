import Mathlib.Data.List.DropRight
import Mathlib.Data.List.Basic

namespace history

/-- Every entry of a log is justified by the entries before it. -/
def Justified {α : Type*} (P : List α → α → Prop) (log : List α) : Prop :=
  ∀ earlier entry later, log = earlier ++ entry :: later → P earlier entry

theorem justified_nil {α : Type*} {P : List α → α → Prop} : Justified P [] := by
  intro earlier entry later hlog
  simp at hlog

/-- An entry appended to a justified log needs a justification of its own only. -/
theorem Justified.concat {α : Type*} {P : List α → α → Prop} {log : List α} {last : α}
    (hlog : Justified P log) (hlast : P log last) : Justified P (log ++ [last]) := by
  intro earlier entry later hsplit
  rcases List.eq_nil_or_concat later with rfl | ⟨later, final, rfl⟩
  · obtain ⟨rfl, hentry⟩ := List.append_inj' hsplit rfl
    exact List.singleton_inj.mp hentry ▸ hlast
  · have hassoc : log ++ [last] = (earlier ++ entry :: later) ++ [final] := by simpa using hsplit
    obtain ⟨hearlier, _⟩ := List.append_inj' hassoc rfl
    exact hlog earlier entry later hearlier

/-- The entries after the last marker of a log. -/
def since {α : Type*} (marker : α → Bool) (log : List α) : List α :=
  log.rtakeWhile fun entry => !marker entry

@[simp] theorem since_nil {α : Type*} (marker : α → Bool) : since marker [] = [] :=
  List.rtakeWhile_nil _

/-- Nothing has come since the marker that comes last. -/
theorem since_concat_marker {α : Type*} {marker : α → Bool} (log : List α) {last : α}
    (hlast : marker last = true) : since marker (log ++ [last]) = [] :=
  List.rtakeWhile_concat_neg _ _ _ (by simp [hlast])

/-- Any other entry is added to what has come since the last marker. -/
theorem since_concat {α : Type*} {marker : α → Bool} (log : List α) {last : α}
    (hlast : marker last = false) : since marker (log ++ [last]) = since marker log ++ [last] :=
  List.rtakeWhile_concat_pos _ _ _ (by simp [hlast])

/-- A log is what came up to its last marker, and what came since. -/
theorem exists_append_since {α : Type*} (marker : α → Bool) (log : List α) :
    log = since marker log ∨ ∃ earlier mark, marker mark = true ∧
      log = earlier ++ mark :: since marker log := by
  have hsplit : log.rdropWhile (fun entry => !marker entry) ++ since marker log = log :=
    List.rdropWhile_append_rtakeWhile
  by_cases hempty : log.rdropWhile (fun entry => !marker entry) = []
  · left
    rw [hempty, List.nil_append] at hsplit
    exact hsplit.symm
  · right
    have hlast := List.rdropWhile_last_not (fun entry => !marker entry) log hempty
    refine ⟨(log.rdropWhile fun entry => !marker entry).dropLast, _, by simpa using hlast, ?_⟩
    rw [List.append_cons, List.dropLast_append_getLast hempty, hsplit]

/-- What has come since the last marker is in the log. -/
theorem mem_of_mem_since {α : Type*} {marker : α → Bool} {log : List α} {entry : α}
    (h : entry ∈ since marker log) : entry ∈ log :=
  (List.rtakeWhile_suffix _ _).subset h

end history
