import Mathlib.Algebra.Group.Nat.Defs
import Mathlib.Data.List.Induction
import OnDemand.Proofs.Catalog.Lines
import OnDemand.Proofs.Store.Normal
import OnDemand.Proofs.Text.Number

/-!
# The grammar of index entries

A text describes an entry if each of its sizes and times is a literal and its last object is not empty. It is the last
line with a key that counts, and lines with other keys do not.
-/

namespace OnDemand.Index

variable {key path text : String} {l rest v : List Char} {ls ls' others : List (List Char)} {e : Entry}

/-- The line that gives `key` a value. -/
def line (key : String) (rest : List Char) : List Char := key.toList ++ '=' :: rest

/-- `v` is what the last line with the key gives it, without blanks around. -/
def LastValue (key : String) (ls : List (List Char)) (v : List Char) : Prop :=
  ∃ before rest after, ls = before ++ line key rest :: after ∧ (∀ l ∈ after, ∀ rest, l ≠ line key rest) ∧
    Text.trimBy Text.isBlank rest = v

/-- What the last line with the key gives it is a literal of `a`, or there is no such line and `a` is the default. -/
def LastRead {α : Type} (literal : List Char → α → Prop) (default : α) (key : String) (ls : List (List Char)) (a : α) :
    Prop :=
  (∃ v, LastValue key ls v ∧ literal v a) ∨ (∀ l ∈ ls, ∀ rest, l ≠ line key rest) ∧ a = default

/-- The lines describe an entry. -/
structure Readable (ls : List (List Char)) : Prop where
  size : ∀ rest, line "size" rest ∈ ls → ∃ n, Text.UnsignedLiteral (2 ^ 64) (Text.trimBy Text.isBlank rest) n
  mtime : ∀ rest, line "mtime" rest ∈ ls → ∃ t, Text.SignedLiteral (2 ^ 63) (Text.trimBy Text.isBlank rest) t
  object : ∃ v, LastValue "object" ls v ∧ v ≠ []

/-- The lines describe the entry `e` at `path`. -/
structure Describes (path : String) (ls : List (List Char)) (e : Entry) : Prop where
  path : e.path.toList = Text.trimBy (· = '/') path.toList
  object : LastValue "object" ls e.object.toList
  size : LastRead (Text.UnsignedLiteral (2 ^ 64)) 0 "size" ls e.size
  mtime : LastRead (Text.SignedLiteral (2 ^ 63)) 0 "mtime" ls e.mtime
  file : e.directory = false

/-! ## The values of a key -/

theorem after?_key : Text.after? (key.toList ++ ['=']) l = some rest ↔ l = line key rest := by
  rw [Text.after?_eq_some, List.append_assoc]
  rfl

theorem after?_key_eq_none : Text.after? (key.toList ++ ['=']) l = none ↔ ∀ rest, l ≠ line key rest := by
  simp only [Option.eq_none_iff_forall_ne_some, ne_eq, after?_key]

theorem mem_values : v ∈ values key ls ↔ ∃ rest, line key rest ∈ ls ∧ Text.trimBy Text.isBlank rest = v := by
  simp only [values, List.mem_filterMap, Option.map_eq_some_iff, after?_key]
  constructor
  · rintro ⟨l, hl, rest, rfl, hv⟩
    exact ⟨rest, hl, hv⟩
  · rintro ⟨rest, hl, hv⟩
    exact ⟨_, hl, rest, rfl, hv⟩

theorem values_eq_nil : values key ls = [] ↔ ∀ l ∈ ls, ∀ rest, l ≠ line key rest := by
  simp only [values, List.filterMap_eq_nil_iff, Option.map_eq_none_iff, after?_key_eq_none]

theorem getLast?_values : (values key ls).getLast? = some v ↔ LastValue key ls v := by
  simp only [values, List.getLast?_filterMap, List.findSome?_eq_some_iff, Option.map_eq_some_iff, Option.map_eq_none_iff,
    after?_key, after?_key_eq_none]
  constructor
  · rintro ⟨after, l, before, hls, ⟨rest, rfl, hv⟩, hafter⟩
    refine ⟨before.reverse, rest, after.reverse, ?_, fun l hl => hafter l (List.mem_reverse.1 hl), hv⟩
    rw [← List.reverse_reverse ls, hls]
    simp
  · rintro ⟨before, rest, after, rfl, hafter, hv⟩
    refine ⟨after.reverse, _, before.reverse, ?_, ⟨rest, rfl, hv⟩, fun l hl => hafter l (List.mem_reverse.1 hl)⟩
    simp

/-! ## Numbers among the values -/

section Reading

variable {α : Type} {read : List Char → Option α} {literal : List Char → α → Prop} {default a : α} {vs : List (List Char)}

theorem lastRead_append_singleton :
    lastRead read default (vs ++ [v]) = (lastRead read default vs).bind fun _ => read v := by
  simp only [lastRead, List.foldl_append, List.foldl_cons, List.foldl_nil]

/-- One value that cannot be read spoils them all. -/
theorem exists_lastRead (default : α) : (∃ a, lastRead read default vs = some a) ↔ ∀ v ∈ vs, ∃ b, read v = some b := by
  induction vs using List.reverseRecOn with
  | nil => exact iff_of_true ⟨default, rfl⟩ nofun
  | append_singleton vs v ih =>
    simp only [lastRead_append_singleton, Option.bind_eq_some_iff, List.forall_mem_append, List.forall_mem_singleton, ← ih]
    constructor
    · rintro ⟨a, b, hb, ha⟩
      exact ⟨⟨b, hb⟩, a, ha⟩
    · rintro ⟨⟨b, hb⟩, a, ha⟩
      exact ⟨a, b, hb, ha⟩

theorem lastRead_eq_some : lastRead read default vs = some a ↔
    (∀ v ∈ vs, ∃ b, read v = some b) ∧ ((∃ v, vs.getLast? = some v ∧ read v = some a) ∨ vs = [] ∧ a = default) := by
  rcases List.eq_nil_or_concat' vs with rfl | ⟨front, v, rfl⟩
  · have hnone : lastRead read default [] = some default := rfl
    simp only [hnone, Option.some.injEq, List.getLast?_nil, reduceCtorEq, false_and, exists_false, false_or, true_and,
      List.not_mem_nil, false_implies, implies_true, eq_comm]
  · have hne : front ++ [v] ≠ [] := List.append_ne_nil_of_right_ne_nil front (List.cons_ne_nil v [])
    simp only [lastRead_append_singleton, Option.bind_eq_some_iff, List.forall_mem_append, List.forall_mem_singleton,
      ← exists_lastRead default, List.getLast?_concat, Option.some.injEq, hne, false_and, or_false,
      exists_eq_left']
    constructor
    · rintro ⟨b, hb, ha⟩
      exact ⟨⟨⟨b, hb⟩, a, ha⟩, ha⟩
    · rintro ⟨⟨⟨b, hb⟩, -⟩, ha⟩
      exact ⟨b, hb, ha⟩

theorem lastRead_values (hread : ∀ v a, read v = some a ↔ literal v a) :
    lastRead read default (values key ls) = some a ↔
      (∀ rest, line key rest ∈ ls → ∃ b, literal (Text.trimBy Text.isBlank rest) b) ∧ LastRead literal default key ls a := by
  simp only [lastRead_eq_some, hread, getLast?_values, values_eq_nil, mem_values, LastRead]
  refine and_congr_left fun _ => ?_
  constructor
  · exact fun h rest hl => h _ ⟨rest, hl, rfl⟩
  · rintro h v ⟨rest, hl, rfl⟩
    exact h rest hl

theorem exists_lastRead_values (default : α) (hread : ∀ v a, read v = some a ↔ literal v a)
    (h : ∀ rest, line key rest ∈ ls → ∃ b, literal (Text.trimBy Text.isBlank rest) b) :
    ∃ a, lastRead read default (values key ls) = some a := by
  refine (exists_lastRead default).2 fun v hv => ?_
  obtain ⟨rest, hl, rfl⟩ := mem_values.1 hv
  exact (h rest hl).imp fun b => (hread _ b).2

end Reading

/-! ## Reading an entry -/

theorem read_size (v : List Char) (n : Nat) : Text.unsigned? sizeBound v = some n ↔ Text.UnsignedLiteral (2 ^ 64) v n :=
  Text.unsigned?_eq_some

theorem read_mtime (v : List Char) (t : Int) : Text.signed? mtimeBound v = some t ↔ Text.SignedLiteral (2 ^ 63) v t :=
  Text.signed?_eq_some

theorem lastObject_eq_some : (values "object" ls).getLast?.filter (· ≠ []) = some v ↔ LastValue "object" ls v ∧ v ≠ [] := by
  rw [Option.filter_eq_some_iff, getLast?_values, decide_eq_true_eq]

theorem parse?_eq_some_iff : parse? path text = some e ↔
    ∃ size mtime v, lastRead (Text.unsigned? sizeBound) 0 (values "size" (lines text.toList)) = some size ∧
      lastRead (Text.signed? mtimeBound) 0 (values "mtime" (lines text.toList)) = some mtime ∧
      LastValue "object" (lines text.toList) v ∧ v ≠ [] ∧
      ⟨String.ofList (Text.trimBy (· = '/') path.toList), String.ofList v, size, mtime, false⟩ = e := by
  simp only [parse?, Option.bind_eq_bind, Option.bind_eq_some_iff, lastObject_eq_some, Option.pure_def, Option.some.injEq,
    exists_and_left, and_assoc]

theorem isSome_parse? : (parse? path text).isSome = true ↔ Readable (lines text.toList) := by
  rw [Option.isSome_iff_exists]
  constructor
  · rintro ⟨e, he⟩
    obtain ⟨size, mtime, v, hsize, hmtime, hv, hne, -⟩ := parse?_eq_some_iff.1 he
    exact ⟨((lastRead_values read_size).1 hsize).1, ((lastRead_values read_mtime).1 hmtime).1, v, hv, hne⟩
  · intro h
    obtain ⟨size, hsize⟩ := exists_lastRead_values 0 read_size h.size
    obtain ⟨mtime, hmtime⟩ := exists_lastRead_values 0 read_mtime h.mtime
    obtain ⟨v, hv, hne⟩ := h.object
    exact ⟨_, parse?_eq_some_iff.2 ⟨size, mtime, v, hsize, hmtime, hv, hne, rfl⟩⟩

theorem describes_of_parse? (h : parse? path text = some e) : Describes path (lines text.toList) e := by
  obtain ⟨size, mtime, v, hsize, hmtime, hv, -, rfl⟩ := parse?_eq_some_iff.1 h
  exact {
    path := String.toList_ofList
    object := by rwa [String.toList_ofList]
    size := ((lastRead_values read_size).1 hsize).2
    mtime := ((lastRead_values read_mtime).1 hmtime).2
    file := rfl }

/-! ## Reading what is rendered -/

/-- The file `e` can be written into an index: its numbers fit into words, its path has no slash at either end, and its
object has a name without blanks at either end. -/
structure Indexable (e : Entry) : Prop where
  file : e.directory = false
  size : e.size < 2 ^ 64
  mtime : Word.fitsSigned e.mtime = true
  path : e.path.toList.head? ≠ some '/' ∧ e.path.toList.getLast? ≠ some '/'
  named : e.object ≠ ""
  trimmed : (∀ c ∈ e.object.toList.head?, Text.isBlank c = false) ∧ ∀ c ∈ e.object.toList.getLast?, Text.isBlank c = false

theorem toList_render (e : Entry) : (render e).map String.toList =
    [line "object" e.object.toList, line "size" (toString e.size).toList, line "mtime" (toString e.mtime).toList] := by
  simp [render, line, toString]

theorem values_cons_line : values key (line key rest :: ls) = Text.trimBy Text.isBlank rest :: values key ls := by
  rw [values, List.filterMap_cons_some (by rw [after?_key.2 rfl, Option.map_some]), ← values]

theorem values_cons_of_ne (h : ∀ rest, l ≠ line key rest) : values key (l :: ls) = values key ls := by
  rw [values, List.filterMap_cons_none (by rw [after?_key_eq_none.2 h, Option.map_none]), ← values]

/-- Each key has the one value that it is rendered with. -/
theorem values_render (e : Entry) :
    values "object" ((render e).map String.toList) = [Text.trimBy Text.isBlank e.object.toList] ∧
      values "size" ((render e).map String.toList) = [Text.trimBy Text.isBlank (toString e.size).toList] ∧
      values "mtime" ((render e).map String.toList) = [Text.trimBy Text.isBlank (toString e.mtime).toList] := by
  have hobject : ∀ rest rest', line "object" rest ≠ line "size" rest' ∧ line "object" rest ≠ line "mtime" rest' := by
    simp [line]
  have hsize : ∀ rest rest', line "size" rest ≠ line "mtime" rest' := by simp [line]
  rw [toList_render]
  refine ⟨?_, ?_, ?_⟩
  · rw [values_cons_line, values_cons_of_ne fun r => (hobject r _).1.symm, values_cons_of_ne fun r => (hobject r _).2.symm]
    rfl
  · rw [values_cons_of_ne fun r => (hobject _ r).1, values_cons_line, values_cons_of_ne fun r => (hsize r _).symm]
    rfl
  · rw [values_cons_of_ne fun r => (hobject _ r).2, values_cons_of_ne fun r => hsize _ r, values_cons_line]
    rfl

/-- A key that one part of the lines alone gives a value has that value, wherever those lines stand. -/
theorem values_of_perm (hperm : ls.Perm (ls' ++ others)) (hothers : ∀ l ∈ others, ∀ rest, l ≠ line key rest)
    (hvalues : values key ls' = [v]) : values key ls = [v] := by
  have hsame : (values key ls).Perm (values key (ls' ++ others)) := hperm.filterMap _
  have hnone : values key others = [] := values_eq_nil.2 hothers
  have hall : values key (ls' ++ others) = values key ls' ++ values key others := List.filterMap_append
  rw [hall, hnone, hvalues, List.append_nil] at hsame
  exact List.perm_singleton.1 hsame

theorem trim_literal {bound : Nat} {t : Int} (h : Text.SignedLiteral bound v t) : Text.trimBy Text.isBlank v = v :=
  Text.trimBy_eq_self (fun _ hc => Text.not_isBlank_of_signedLiteral h (List.mem_of_mem_head? hc))
    fun _ hc => Text.not_isBlank_of_signedLiteral h (List.mem_of_mem_getLast? hc)

theorem lastRead_singleton {α : Type} {read : List Char → Option α} {default : α} : lastRead read default [v] = read v := rfl

theorem Indexable.signedLiteral (h : Indexable e) : Text.SignedLiteral (2 ^ 63) (toString e.mtime).toList e.mtime := by
  obtain ⟨hleast, hgreatest⟩ := Word.fitsSigned_iff.1 h.mtime
  simp only [Word.minSigned, Word.maxSigned] at hleast hgreatest
  exact Text.signedLiteral_toString (by omega) (by omega)

theorem Indexable.trim_path (h : Indexable e) : String.ofList (Text.trimBy (· = '/') e.path.toList) = e.path := by
  obtain ⟨hfront, hback⟩ := h.path
  rw [Text.trimBy_eq_self, String.ofList_toList]
  · exact fun c hc => decide_eq_false fun he => hfront (he ▸ hc)
  · exact fun c hc => decide_eq_false fun he => hback (he ▸ hc)

/-- Other lines, and the order of the lines, do not matter to what is read. -/
theorem parse?_of_perm (h : Indexable e) (hwritten : Written ls text.toList)
    (hperm : ls.Perm ((render e).map String.toList ++ others))
    (hothers : ∀ l ∈ others, ∀ key ∈ ["object", "size", "mtime"], ∀ rest, l ≠ line key rest) :
    parse? e.path text = some e := by
  obtain ⟨hobject, hsize, hmtime⟩ := values_render e
  have hlines := lines_of_written hwritten
  have hsizeLiteral := Text.unsignedLiteral_toString h.size
  refine parse?_eq_some_iff.2 ⟨e.size, e.mtime, e.object.toList, ?_, ?_, ?_, ?_, ?_⟩
  · rw [hlines, values_of_perm hperm (fun l hl => hothers l hl "size" (by simp)) hsize, lastRead_singleton,
      trim_literal (.unsigned hsizeLiteral), read_size]
    exact hsizeLiteral
  · rw [hlines, values_of_perm hperm (fun l hl => hothers l hl "mtime" (by simp)) hmtime, lastRead_singleton,
      trim_literal h.signedLiteral, read_mtime]
    exact h.signedLiteral
  · rw [hlines, ← getLast?_values, values_of_perm hperm (fun l hl => hothers l hl "object" (by simp)) hobject,
      List.getLast?_singleton, Text.trimBy_eq_self h.trimmed.1 h.trimmed.2]
  · exact fun hnil => h.named (String.toList_eq_nil_iff.1 hnil)
  · rw [h.trim_path, String.ofList_toList]
    exact congrArg (Entry.mk e.path e.object e.size e.mtime) h.file.symm

/-! ## The whole -/

/-- Every text is written in lines, and in the lines that are read only. It describes an entry exactly if its lines do, and
the one that they describe. Whatever the order of the lines in which an entry is rendered, however they end and whatever
lines with other keys stand among them, it is that entry which is read. -/
theorem entries_read_as_described :
    (∀ s ls, lines s = ls ↔ Written ls s) ∧
    (∀ path text, ((parse? path text).isSome = true ↔ Readable (lines text.toList)) ∧
      ∀ e, parse? path text = some e → Describes path (lines text.toList) e) ∧
    ∀ (e : Entry) (ls others : List (List Char)) (text : String), Indexable e → Written ls text.toList →
      ls.Perm ((render e).map String.toList ++ others) →
      (∀ l ∈ others, ∀ key ∈ ["object", "size", "mtime"], ∀ rest, l ≠ line key rest) → parse? e.path text = some e :=
  ⟨fun _ _ => lines_eq_iff, fun _ _ => ⟨isSome_parse?, fun _ => describes_of_parse?⟩,
    fun _ _ _ _ h hwritten hperm hothers => parse?_of_perm h hwritten hperm hothers⟩

/-- An entry at the bounds of what words hold, in lines of which some end with a carriage return and the last with the text. -/
theorem entries_read_as_described_atBounds :
    let e : Entry := ⟨"docs/a=b", "size= \r é", 18446744073709551615, -9223372036854775808, false⟩
    let text := "Object=x\r\nmtime=-9223372036854775808\r\n\nsize=18446744073709551615\nobject=size= \r é"
    let others := ["Object=x".toList, []]
    Indexable e ∧ Written (lines text.toList) text.toList ∧
      (lines text.toList).Perm ((render e).map String.toList ++ others) ∧
      (∀ l ∈ others, ∀ key ∈ ["object", "size", "mtime"], ∀ rest, l ≠ line key rest) ∧ parse? e.path text = some e := by
  intro e text others
  have hends : e.object.toList.head? = some 's' ∧ e.object.toList.getLast? = some 'é' := by decide
  have htrimmed : (∀ c ∈ e.object.toList.head?, Text.isBlank c = false) ∧
      ∀ c ∈ e.object.toList.getLast?, Text.isBlank c = false := by
    rw [hends.1, hends.2]
    exact ⟨fun c hc => Option.some.inj hc ▸ by decide, fun c hc => Option.some.inj hc ▸ by decide⟩
  have hindexable : Indexable e := ⟨rfl, by decide, by decide, by decide +kernel, by decide, htrimmed⟩
  have hwritten : Written (lines text.toList) text.toList := (entries_read_as_described.1 _ _).1 rfl
  have hperm : (lines text.toList).Perm ((render e).map String.toList ++ others) := by decide +kernel
  have hothers : ∀ l ∈ others, ∀ key ∈ ["object", "size", "mtime"], ∀ rest, l ≠ line key rest := by
    simp [others, line]
  exact ⟨hindexable, hwritten, hperm, hothers, entries_read_as_described.2.2 e _ others text hindexable hwritten hperm hothers⟩

end OnDemand.Index
