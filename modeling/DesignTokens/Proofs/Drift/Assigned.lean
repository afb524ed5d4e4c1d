import DesignTokens.Proofs.Drift.WrittenMap

/-!
Source texts that assign a written map to a name. The search finds the name where it first occurs,
the braces after the equals sign end where the map does, and the map that is read is the one that is
written.
-/
namespace DesignTokens.Drift

open Text Text.Pattern

/-! ### The assignment -/

section

variable {name : String} {p : Place}

/-- An assignment starts with its name. -/
theorem starts_of_endAt?_assignment {e : Place} (h : (assignment name).endAt? p = some e) :
    name.toList <+: p.rest := by
  rw [endAt?, assignment, run_all_cons, run] at h
  split at h
  · cases h
  · rw [run_all_cons, literal] at h
    exact starts_of_run_chars h

/-- A name and an equals sign, with blanks around the sign, are an assignment. -/
theorem endAt?_assignment {gap gap' rest : List Char} (hgap : ∀ c ∈ gap, isBlank c)
    (hgap' : ∀ c ∈ gap', isBlank c) (hrest : ∀ c ∈ rest.head?, isBlank c = false)
    (hbefore : holds isDotted p.before = false)
    (hp : p.rest = name.toList ++ (gap ++ '=' :: (gap' ++ rest))) :
    ∃ e, (assignment name).endAt? p = some e ∧ e.rest = rest := by
  let named := p.after name.toList (gap ++ '=' :: (gap' ++ rest))
  let signed := (named.after gap ('=' :: (gap' ++ rest)))
  let opened := (signed.next '=' (gap' ++ rest)).after gap' rest
  refine ⟨opened, ?_, rfl⟩
  have hlast : (all [blanks]).run some (signed.next '=' (gap' ++ rest)) = some opened :=
    run_many hgap' hrest rfl rfl
  have hsign : (all [.one fun c => c == '=' || c == ':', blanks]).run some signed = some opened := by
    rw [run_all_cons, run]
    exact hlast
  have hblanks : (all [blanks, .one fun c => c == '=' || c == ':', blanks]).run some signed =
      some opened := by
    rw [run_all_cons]
    exact run_many (List.forall_mem_nil _) (by simp [isBlank]) rfl hsign
  have htype : (all [optional (all [char ':', blanks,
      .few fun c => c != '=' && c != '\n' && c != '\x7b']), blanks,
      .one fun c => c == '=' || c == ':', blanks]).run some signed = some opened := by
    rw [run_all_cons, Pattern.optional, run, run_all_cons]
    exact hblanks
  have hgapped : blanks.run ((all [optional (all [char ':', blanks,
      .few fun c => c != '=' && c != '\n' && c != '\x7b']), blanks,
      .one fun c => c == '=' || c == ':', blanks]).run some) named = some opened :=
    run_many hgap (by simp [isBlank]) rfl htype
  rw [endAt?, assignment, run_all_cons, run, hbefore, if_neg (by simp), run_all_cons, literal,
    run_chars _ _ p hp, run_all_cons]
  exact hgapped

end

section

variable {name : String} {before : List Char} (hline : ∀ c ∈ before.getLast?, c = '\n')
  (hname : '\n' ∉ name.toList) (habsent : ¬name.toList <:+: before)
include hline hname habsent

/-- A name of one line that does not occur before the line does not start there either. -/
theorem not_starts_before {part rest : List Char} (hne : part ≠ []) (hpart : part <:+ before) :
    ¬name.toList <+: part ++ rest := by
  intro hstarts
  rcases List.prefix_or_prefix_of_prefix hstarts (List.prefix_append part rest) with hin | hover
  · exact habsent (hin.isInfix.trans hpart.isInfix)
  · obtain ⟨first, hfirst⟩ := hpart
    have hlast : before.getLast? = some (part.getLast hne) := by
      rw [← hfirst, List.getLast?_append_of_ne_nil _ hne, List.getLast?_eq_some_getLast hne]
    have hnewline := hline _ hlast
    exact hname (hnewline ▸ hover.subset (List.getLast_mem hne))

/-- The first assignment of a name is the one on the line where it first occurs. -/
theorem findAssignment_eq {gap gap' rest : List Char} (hgap : ∀ c ∈ gap, isBlank c)
    (hgap' : ∀ c ∈ gap', isBlank c) (hrest : ∀ c ∈ rest.head?, isBlank c = false) :
    ∃ start stop, findAssignment (String.ofList (before ++
        (name.toList ++ (gap ++ '=' :: (gap' ++ rest))))) name = some (start, stop) ∧
      start.offset = before.length ∧ stop.rest = rest := by
  have hnone : ∀ p : Place, ∀ part, part ≠ [] → part <:+ before →
      p.rest = part ++ (name.toList ++ (gap ++ '=' :: (gap' ++ rest))) →
      (assignment name).endAt? p = none := by
    intro p part hne hpart hp
    by_contra hsome
    obtain ⟨e, he⟩ := Option.ne_none_iff_exists'.mp hsome
    have hstarts := starts_of_endAt?_assignment he
    rw [hp] at hstarts
    exact not_starts_before hline hname habsent hne hpart hstarts
  have hedge : holds isDotted (before.getLast?.or none) = false := by
    cases hlast : before.getLast? with
    | none => rfl
    | some c =>
      obtain rfl := hline c hlast
      decide
  let start : Place := ⟨0 + before.length, before.getLast?.or none,
    name.toList ++ (gap ++ '=' :: (gap' ++ rest))⟩
  obtain ⟨e, he, hstop⟩ := endAt?_assignment (p := start) hgap hgap' hrest hedge rfl
  refine ⟨start, e, ?_, Nat.zero_add _, hstop⟩
  rw [findAssignment, search, String.toList_ofList, searchFrom_append hnone,
    searchFrom_of_endAt? he]

end

/-- What may stand before an assignment to a name: nothing, or lines in which the name, if it is of
one line, does not occur. -/
inductive Precedes (name : String) : List Char → Prop where
  | start : Precedes name []
  | lines {before : List Char} (hline : ∀ c ∈ before.getLast?, c = '\n')
      (hname : '\n' ∉ name.toList) (habsent : ¬name.toList <:+: before) : Precedes name before

theorem Precedes.exists_findAssignment {name : String} {before gap gap' rest : List Char}
    (h : Precedes name before) (hgap : ∀ c ∈ gap, isBlank c) (hgap' : ∀ c ∈ gap', isBlank c)
    (hrest : ∀ c ∈ rest.head?, isBlank c = false) :
    ∃ start stop, findAssignment (String.ofList (before ++
        (name.toList ++ (gap ++ '=' :: (gap' ++ rest))))) name = some (start, stop) ∧
      start.offset = before.length ∧ stop.rest = rest := by
  cases h with
  | lines hline hname habsent => exact findAssignment_eq hline hname habsent hgap hgap' hrest
  | start =>
    let start : Place := ⟨0, none, name.toList ++ (gap ++ '=' :: (gap' ++ rest))⟩
    obtain ⟨stop, hstop, hrest⟩ := endAt?_assignment (p := start) hgap hgap' hrest rfl rfl
    refine ⟨start, stop, ?_, rfl, hrest⟩
    rw [findAssignment, search, String.toList_ofList, List.nil_append, searchFrom_of_endAt? hstop]

theorem isBlank_of_mem_space : ∀ c ∈ [' '], isBlank c := by simp [isBlank]

/-! ### The map -/

/-- A source text that assigns a written map to a name: the name starts a line and does not occur
before, an equals sign and the braces follow, and after them anything may stand. -/
structure MapSource (name : String) where
  before : List Char
  gap : List Char := [' ']
  gap' : List Char := [' ']
  entries : List WrittenEntry
  body : List Char
  after : List Char
  startsLine : ∀ c ∈ before.getLast?, c = '\n'
  absent : ¬name.toList <:+: before
  oneLine : '\n' ∉ name.toList
  gap_blank : ∀ c ∈ gap, isBlank c
  gap'_blank : ∀ c ∈ gap', isBlank c
  writes : Writes entries body
  distinct : (entries.map (·.key)).Nodup

namespace MapSource

variable {name : String} (s : MapSource name)

def text : String :=
  String.ofList (s.before ++ (name.toList ++ (s.gap ++ '=' :: (s.gap' ++ '\x7b' ::
    (s.body ++ '\x7d' :: s.after)))))

/-- The line of the name. -/
def line : Nat := s.before.count '\n' + 1

/-- The map that is written. -/
def map : Table Float := s.entries.map fun e => (e.key, e.value.value)

/-- The map that is read is the one that is written, on the line of the name. -/
theorem assignedMap?_text : assignedMap? s.text name = some (s.map, s.line) := by
  obtain ⟨start, stop, hfind, hoffset, hrest⟩ : ∃ start stop,
      findAssignment s.text name = some (start, stop) ∧ start.offset = s.before.length ∧
        stop.rest = '\x7b' :: (s.body ++ '\x7d' :: s.after) :=
    findAssignment_eq s.startsLine s.oneLine s.absent s.gap_blank s.gap'_blank
      (forall_head?_cons (by decide))
  have hline : lineOf s.text start.offset = s.line := by
    rw [lineOf, text, String.toList_ofList, hoffset, List.take_left, line]
  rw [assignedMap?, hfind]
  simp only [Option.bind_eq_bind, Option.bind_some, hrest, block?_writes s.writes,
    entriesOf_writes s.writes s.distinct, hline]
  rfl

end MapSource

end DesignTokens.Drift
