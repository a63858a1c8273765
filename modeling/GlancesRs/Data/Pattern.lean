import Mathlib.Data.List.Infix

namespace GlancesRs.Data

/-! Regular expressions made of characters, dots and stars alone: what they denote,
and an unanchored search for them. -/

inductive Atom where
  | char (c : Char)
  | any
deriving DecidableEq

/-- A dot stands for every character but a line feed. -/
def Atom.accepts : Atom → Char → Bool
  | .char c, found => c == found
  | .any, found => found != '\n'

structure Piece where
  atom : Atom
  starred : Bool := false
deriving DecidableEq

abbrev Pattern := List Piece

namespace Pattern

def literal (word : List Char) : Pattern := word.map fun c => { atom := .char c }

/-- The characters with a meaning of their own, the dot and the star apart. -/
def isMeta (c : Char) : Bool := "\\^$|?+()[]\x7b\x7d".toList.contains c

/-- `none` outside of the fragment. -/
def parse : List Char → Option Pattern
  | [] => some []
  | '*' :: _ => none
  | c :: rest =>
      if isMeta c then none
      else
        let atom := if c = '.' then .any else .char c
        match rest with
        | '*' :: rest => (parse rest).map ({ atom, starred := true } :: ·)
        | rest => (parse rest).map ({ atom } :: ·)

/-- The texts a pattern denotes. -/
inductive Matches : Pattern → List Char → Prop
  | nil : Matches [] []
  | one {atom : Atom} {rest : Pattern} {c : Char} {text : List Char}
      (accepted : atom.accepts c = true) (tail : Matches rest text) :
      Matches (⟨atom, false⟩ :: rest) (c :: text)
  | stop {atom : Atom} {rest : Pattern} {text : List Char} (tail : Matches rest text) :
      Matches (⟨atom, true⟩ :: rest) text
  | more {atom : Atom} {rest : Pattern} {c : Char} {text : List Char}
      (accepted : atom.accepts c = true) (tail : Matches (⟨atom, true⟩ :: rest) text) :
      Matches (⟨atom, true⟩ :: rest) (c :: text)

/-- Some part of the text, anywhere in it, is one of them. -/
def Occurs (pattern : Pattern) (text : List Char) : Prop :=
  ∃ before piece after, text = before ++ piece ++ after ∧ Matches pattern piece

def starThen (atom : Atom) (next : List Char → Bool) : List Char → Bool
  | [] => next []
  | c :: text => next (c :: text) || (atom.accepts c && starThen atom next text)

/-- Whether the text begins with a match. -/
def matchHere : Pattern → List Char → Bool
  | [] => fun _ => true
  | ⟨atom, false⟩ :: rest => fun
      | [] => false
      | c :: text => atom.accepts c && matchHere rest text
  | ⟨atom, true⟩ :: rest => starThen atom (matchHere rest)

def search (pattern : Pattern) : List Char → Bool
  | [] => matchHere pattern []
  | c :: text => matchHere pattern (c :: text) || search pattern text

variable {pattern rest : Pattern} {piece : Piece} {atom : Atom} {word text : List Char}

theorem starThen_iff {next : List Char → Bool}
    (follows : ∀ text, next text = true ↔ ∃ piece after, text = piece ++ after ∧ Matches rest piece) :
    starThen atom next text = true ↔
      ∃ piece after, text = piece ++ after ∧ Matches (⟨atom, true⟩ :: rest) piece := by
  induction text with
  | nil =>
      rw [starThen, follows]
      constructor
      · intro found
        obtain ⟨piece, after, whole, tail⟩ := found
        exact ⟨piece, after, whole, .stop tail⟩
      · intro found
        obtain ⟨piece, after, whole, denoted⟩ := found
        obtain ⟨rfl, rfl⟩ := List.append_eq_nil_iff.mp whole.symm
        cases denoted with
        | stop tail => exact ⟨[], [], rfl, tail⟩
  | cons c text ih =>
      rw [starThen, Bool.or_eq_true, Bool.and_eq_true, follows, ih]
      constructor
      · intro found
        rcases found with ⟨piece, after, whole, tail⟩ | ⟨accepted, piece, after, rfl, tail⟩
        · exact ⟨piece, after, whole, .stop tail⟩
        · exact ⟨c :: piece, after, rfl, .more accepted tail⟩
      · intro found
        obtain ⟨piece, after, whole, denoted⟩ := found
        cases denoted with
        | stop tail => exact .inl ⟨piece, after, whole, tail⟩
        | more accepted tail =>
            cases whole
            exact .inr ⟨accepted, _, after, rfl, tail⟩

theorem matchHere_iff : matchHere pattern text = true ↔
    ∃ piece after, text = piece ++ after ∧ Matches pattern piece := by
  induction pattern generalizing text with
  | nil =>
      constructor
      · intro _
        exact ⟨[], text, rfl, .nil⟩
      · intro _
        rfl
  | cons head rest ih =>
      obtain ⟨atom, starred⟩ := head
      cases starred with
      | true => exact starThen_iff fun _ => ih
      | false =>
          cases text with
          | nil =>
              constructor
              · intro impossible
                cases impossible
              · intro found
                obtain ⟨piece, after, whole, denoted⟩ := found
                cases denoted
                cases whole
          | cons c text =>
              rw [matchHere, Bool.and_eq_true, ih]
              constructor
              · intro found
                obtain ⟨accepted, piece, after, rfl, tail⟩ := found
                exact ⟨c :: piece, after, rfl, .one accepted tail⟩
              · intro found
                obtain ⟨piece, after, whole, denoted⟩ := found
                cases denoted with
                | one accepted tail =>
                    cases whole
                    exact ⟨accepted, _, after, rfl, tail⟩

/-- The search finds what occurs. -/
theorem search_iff : search pattern text = true ↔ Occurs pattern text := by
  induction text with
  | nil =>
      rw [search, matchHere_iff]
      constructor
      · intro found
        obtain ⟨piece, after, whole, denoted⟩ := found
        exact ⟨[], piece, after, whole, denoted⟩
      · intro found
        obtain ⟨before, piece, after, whole, denoted⟩ := found
        obtain ⟨empty, rfl⟩ := List.append_eq_nil_iff.mp whole.symm
        obtain ⟨rfl, rfl⟩ := List.append_eq_nil_iff.mp empty
        exact ⟨[], [], rfl, denoted⟩
  | cons c text ih =>
      rw [search, Bool.or_eq_true, matchHere_iff, ih]
      constructor
      · intro found
        rcases found with ⟨piece, after, whole, denoted⟩ | ⟨before, piece, after, rfl, denoted⟩
        · exact ⟨[], piece, after, whole, denoted⟩
        · exact ⟨c :: before, piece, after, rfl, denoted⟩
      · intro found
        obtain ⟨before, piece, after, whole, denoted⟩ := found
        cases before with
        | nil => exact .inl ⟨piece, after, whole, denoted⟩
        | cons first before =>
            cases whole
            exact .inr ⟨before, piece, after, rfl, denoted⟩

theorem matches_literal : Matches (literal word) text ↔ text = word := by
  induction word generalizing text with
  | nil =>
      constructor
      · intro denoted
        cases denoted
        rfl
      · rintro rfl
        exact .nil
  | cons c word ih =>
      constructor
      · intro denoted
        cases denoted with
        | one accepted tail =>
            obtain rfl := eq_of_beq accepted
            rw [ih.mp tail]
      · rintro rfl
        exact .one (beq_self_eq_true c) (ih.mpr rfl)

theorem Matches.concat_star (denoted : Matches pattern text) :
    Matches (pattern ++ [⟨atom, true⟩]) text := by
  induction denoted with
  | nil => exact .stop .nil
  | one accepted _ ih => exact .one accepted ih
  | stop _ ih => exact .stop ih
  | more accepted _ ih => exact .more accepted ih

theorem Matches.of_concat_star (denoted : Matches (pattern ++ [⟨atom, true⟩]) text) :
    ∃ front back, text = front ++ back ∧ Matches pattern front := by
  generalize whole : pattern ++ [⟨atom, true⟩] = longer at denoted
  induction denoted generalizing pattern with
  | nil => cases pattern <;> cases whole
  | one accepted tail ih =>
      cases pattern with
      | nil => cases whole
      | cons head rest =>
          cases whole
          obtain ⟨front, back, rfl, inner⟩ := ih rfl
          exact ⟨_ :: front, back, rfl, .one accepted inner⟩
  | stop tail ih =>
      cases pattern with
      | nil => exact ⟨[], _, rfl, .nil⟩
      | cons head rest =>
          cases whole
          obtain ⟨front, back, rfl, inner⟩ := ih rfl
          exact ⟨front, back, rfl, .stop inner⟩
  | more accepted tail ih =>
      cases pattern with
      | nil => exact ⟨[], _, rfl, .nil⟩
      | cons head rest =>
          cases whole
          obtain ⟨front, back, rfl, inner⟩ := @ih (_ :: rest) rfl
          exact ⟨_ :: front, back, rfl, .more accepted inner⟩

theorem Matches.of_star_cons (denoted : Matches (⟨atom, true⟩ :: rest) text) :
    ∃ front back, text = front ++ back ∧ Matches rest back := by
  generalize whole : (⟨atom, true⟩ :: rest : Pattern) = starred at denoted
  induction denoted with
  | nil | one => cases whole
  | stop tail =>
      cases whole
      exact ⟨[], _, rfl, tail⟩
  | more accepted tail ih =>
      cases whole
      obtain ⟨front, back, rfl, inner⟩ := ih rfl
      exact ⟨_ :: front, back, rfl, inner⟩

theorem occurs_literal : Occurs (literal word) text ↔ word <:+: text := by
  constructor
  · intro found
    obtain ⟨before, piece, after, rfl, denoted⟩ := found
    rw [matches_literal.mp denoted]
    exact ⟨before, after, rfl⟩
  · intro inside
    obtain ⟨before, after, rfl⟩ := inside
    exact ⟨before, word, after, rfl, matches_literal.mpr rfl⟩

/-- A star at either end of a pattern changes nothing about where it occurs. -/
theorem occurs_concat_star : Occurs (pattern ++ [⟨atom, true⟩]) text ↔ Occurs pattern text := by
  constructor
  · intro found
    obtain ⟨before, piece, after, rfl, denoted⟩ := found
    obtain ⟨front, back, rfl, inner⟩ := denoted.of_concat_star
    exact ⟨before, front, back ++ after, by simp, inner⟩
  · intro found
    obtain ⟨before, piece, after, rfl, denoted⟩ := found
    exact ⟨before, piece, after, rfl, denoted.concat_star⟩

theorem occurs_star_cons : Occurs (⟨atom, true⟩ :: rest) text ↔ Occurs rest text := by
  constructor
  · intro found
    obtain ⟨before, piece, after, rfl, denoted⟩ := found
    obtain ⟨front, back, rfl, inner⟩ := denoted.of_star_cons
    exact ⟨before ++ front, back, after, by simp, inner⟩
  · intro found
    obtain ⟨before, piece, after, rfl, denoted⟩ := found
    exact ⟨before, piece, after, rfl, .stop denoted⟩

end Pattern

end GlancesRs.Data
