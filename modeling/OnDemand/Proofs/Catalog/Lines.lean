import OnDemand.Catalog.Index
import OnDemand.Proofs.Path.Joining

/-!
# The lines of a text

Every text is written in lines, and in one way only: a carriage return before a line feed is no part of its line.
-/

namespace OnDemand.Index

variable {l s : List Char} {ls : List (List Char)}

/-- The text `s` is written in the lines `ls`. A line ends with a line feed, or with a carriage return and a line feed; the
last one may as well end with the text, unless it is empty. -/
inductive Written : List (List Char) → List Char → Prop where
  | nil : Written [] []
  | last {l : List Char} (hl : '\n' ∉ l) (hne : l ≠ []) : Written [l] l
  | feed {l s : List Char} {ls : List (List Char)} (hl : '\n' ∉ l) (hreturn : l.getLast? ≠ some '\r') (h : Written ls s) :
      Written (l :: ls) (l ++ '\n' :: s)
  | returnFeed {l s : List Char} {ls : List (List Char)} (hl : '\n' ∉ l) (h : Written ls s) :
      Written (l :: ls) (l ++ '\r' :: '\n' :: s)

/-- What stands before a line feed, without the carriage return that belongs to the end of the line. -/
def ended (l : List Char) : List Char := if l.getLast? = some '\r' then l.dropLast else l

theorem ended_append_return (l : List Char) : ended (l ++ ['\r']) = l := by
  rw [ended, if_pos List.getLast?_concat, List.dropLast_concat]

theorem ended_of_no_return (h : l.getLast? ≠ some '\r') : ended l = l := if_neg h

/-- What stands before the line feeds, and what follows the last one unless that is nothing. -/
theorem lines_eq (s : List Char) :
    lines s = (s.splitOn '\n').dropLast.map ended ++ (s.splitOn '\n').getLast?.toList.filter (· ≠ []) := by
  cases s with
  | nil => rfl
  | cons c rest =>
    simp only [lines, Text.splitBy_eq_splitOn]
    congr 1
    rcases ((c :: rest).splitOn '\n').getLast? with _ | _ | ⟨d, last⟩ <;> rfl

theorem lines_of_no_feed (hl : '\n' ∉ l) (hne : l ≠ []) : lines l = [l] := by
  have hkept : [l].filter (· ≠ []) = [l] := List.filter_eq_self.2 (by simpa using hne)
  rw [lines_eq, List.splitOn_eq_singleton hl]
  exact hkept

theorem lines_append_feed (hl : '\n' ∉ l) (s : List Char) : lines (l ++ '\n' :: s) = ended l :: lines s := by
  have hpieces := List.splitOn_ne_nil '\n' s
  rw [lines_eq, lines_eq, List.splitOn_append_cons_self_of_not_mem hl, List.dropLast_cons_of_ne_nil hpieces,
    List.getLast?_cons_of_ne_nil hpieces]
  rfl

/-! ## The lines and the text -/

theorem lines_of_written (h : Written ls s) : lines s = ls := by
  induction h with
  | nil => rfl
  | last hl hne => exact lines_of_no_feed hl hne
  | feed hl hreturn h ih => rw [lines_append_feed hl, ended_of_no_return hreturn, ih]
  | @returnFeed l s ls hl h ih =>
    have hreturn : '\n' ∉ l ++ ['\r'] := by simp [hl]
    have happend : l ++ '\r' :: '\n' :: s = (l ++ ['\r']) ++ '\n' :: s := by rw [List.append_assoc]; rfl
    rw [happend, lines_append_feed hreturn, ended_append_return, ih]

theorem written_lines (s : List Char) : Written (lines s) s := by
  induction hlen : s.length using Nat.strongRecOn generalizing s with
  | ind n ih =>
    by_cases hfeed : '\n' ∈ s
    · obtain ⟨l, rest, rfl, hl⟩ := List.eq_append_cons_of_mem hfeed
      have hrest := ih rest.length (by rw [← hlen, List.length_append, List.length_cons]; omega) rest rfl
      rw [lines_append_feed hl]
      by_cases hreturn : l.getLast? = some '\r'
      · obtain ⟨front, rfl⟩ := List.getLast?_eq_some_iff.1 hreturn
        rw [ended_append_return, List.append_assoc]
        exact .returnFeed (fun hfront => hl (List.mem_append_left _ hfront)) hrest
      · rw [ended_of_no_return hreturn]
        exact .feed hl hreturn hrest
    · by_cases hne : s = []
      · subst hne
        exact .nil
      · rw [lines_of_no_feed hfeed hne]
        exact .last hfeed hne

theorem lines_eq_iff : lines s = ls ↔ Written ls s :=
  ⟨fun h => h ▸ written_lines s, lines_of_written⟩

end OnDemand.Index
