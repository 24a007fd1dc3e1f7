import NexusPanel.Wings.Archives
import Mathlib.Data.Countable.Basic
import Mathlib.Logic.Equiv.List

/-!
# Extracting an archive

What is assumed of the archive library: a finished archive is extracted to its entries, the last one
counting where a name was used again, and this succeeds when the entries can be next to each other.
Libraries like that exist, whatever they do with used names, whichever contents they take, and
whatever is in the file before it is finished; so a statement about all of them speaks of some.
-/

namespace Wings

open StateAction FS FileSystem

/-! ## What is assumed of the library -/

def ZipEntry.parts : ZipEntry → List Name
  | .dir parts => parts
  | .file parts _ => parts

/-- What an entry is extracted to. -/
def ZipEntry.node : ZipEntry → Entry
  | .dir _ => .dir
  | .file _ content => .file content

/-- The entry that a name stands for: the last one, should the name have been used before. -/
def LastOf (entries : List ZipEntry) (e : ZipEntry) : Prop :=
  ∃ before after, entries = before ++ e :: after ∧ ∀ e' ∈ after, e'.name ≠ e.name

/-- No file is in the way of another entry. -/
def FitTogether (entries : List ZipEntry) : Prop :=
  ∀ parts content, ZipEntry.file parts content ∈ entries →
    ∀ e ∈ entries, parts <+: e.parts → e.name = ⟨parts, false⟩

/-- Extracting a finished archive into an empty directory restores its entries, and it succeeds
when they can be next to each other. -/
structure ZipLibrary.Restores (library : ZipLibrary) : Prop where
  restores : ∀ entries tree, library.extract (library.finished entries) = some tree →
    ∀ e, LastOf entries e → tree e.parts = some e.node
  succeeds : ∀ entries, FitTogether entries →
    library.extract (library.finished entries) ≠ none

/-! ## A library like that -/

section Ideal

/-- The last entry for the names on the way to something. -/
def treeOf (entries : List ZipEntry) : Extracted := fun parts =>
  (entries.reverse.find? fun e => e.parts = parts).map ZipEntry.node

theorem treeOf_lastOf {entries : List ZipEntry} {e : ZipEntry} (h : FitTogether entries)
    (hlast : LastOf entries e) : treeOf entries e.parts = some e.node := by
  obtain ⟨before, after, rfl, hafter⟩ := hlast
  have hno : ∀ e' ∈ after, ¬ e'.parts = e.parts := by
    intro e' he' hparts
    refine hafter e' he' ?_
    have he : e ∈ before ++ e :: after := List.mem_append_right _ List.mem_cons_self
    have he'' : e' ∈ before ++ e :: after :=
      List.mem_append_right _ (List.mem_cons_of_mem _ he')
    cases e with
    | file parts content => exact h parts content he e' he'' (hparts ▸ List.prefix_rfl)
    | dir parts =>
      cases e' with
      | dir parts' => exact congrArg (fun parts => (⟨parts, true⟩ : EntryName)) hparts
      | file parts' content => exact (h parts' content he'' _ he (hparts ▸ List.prefix_rfl)).symm
  have hnone : after.reverse.find? (fun e' => e'.parts = e.parts) = none := by
    rw [List.find?_eq_none]
    intro e' he'
    simpa using hno e' (List.mem_reverse.mp he')
  unfold treeOf
  rw [List.reverse_append, List.reverse_cons, List.append_assoc, List.find?_append, hnone]
  simp

/-- There are no more entries than numbers. -/
theorem countable_zipEntry : Countable ZipEntry := by
  let number : String → List Nat := fun text => text.toList.map Char.toNat
  let code : ZipEntry → List (List Nat) × Option (List Nat) := fun
    | .dir parts => (parts.map number, none)
    | .file parts content => (parts.map number, some (number content))
  have hnumber : Function.Injective number := by
    intro a b h
    exact String.toList_inj.mp (List.map_injective_iff.mpr (fun _ _ => Char.toNat_inj.mp) h)
  have hparts : Function.Injective (List.map number) := List.map_injective_iff.mpr hnumber
  have hcode : Function.Injective code := by
    intro e e' h
    cases e with
    | dir parts =>
      cases e' with
      | dir parts' => rw [hparts (congrArg Prod.fst h)]
      | file parts' content' => exact absurd (congrArg Prod.snd h) (by simp [code])
    | file parts content =>
      cases e' with
      | dir parts' => exact absurd (congrArg Prod.snd h) (by simp [code])
      | file parts' content' =>
        rw [hparts (congrArg Prod.fst h), hnumber (Option.some.inj (congrArg Prod.snd h))]
  exact hcode.countable

/-- Each list of entries can be written as a text of its own. -/
theorem exists_archive : ∃ write : List ZipEntry → String, Function.Injective write := by
  have hentry := countable_zipEntry
  obtain ⟨number, hnumber⟩ := exists_injective_nat (List ZipEntry)
  refine ⟨fun entries => String.ofList (List.replicate (number entries) '0'), fun a b h => ?_⟩
  have hlength := congrArg (fun text => text.toList.length) h
  simp only [String.toList_ofList, List.length_replicate] at hlength
  exact hnumber hlength

/-- There is a library that restores what it wrote, that refuses used names or not, takes the contents
it is to take, and has any bytes in the file before it is finished. -/
theorem exists_restoring (refuses : Bool) (takes : String → Bool) (unfinished : String) :
    ∃ library : ZipLibrary, library.Restores ∧ library.takes = takes ∧
      library.refuses = refuses ∧ ∀ entries, library.written entries = unfinished := by
  classical
  obtain ⟨write, hwrite⟩ := exists_archive
  let extract : String → Option Extracted := fun bytes =>
    if h : ∃ entries, write entries = bytes ∧ FitTogether entries then some (treeOf h.choose)
    else none
  have hextract (entries : List ZipEntry) : extract (write entries) =
      if FitTogether entries then some (treeOf entries) else none := by
    by_cases hfit : FitTogether entries
    · have h : ∃ entries', write entries' = write entries ∧ FitTogether entries' :=
        ⟨entries, rfl, hfit⟩
      have hchosen : h.choose = entries := hwrite h.choose_spec.1
      simp only [extract, dif_pos h, if_pos hfit, hchosen]
    · have h : ¬ ∃ entries', write entries' = write entries ∧ FitTogether entries' := by
        rintro ⟨entries', hsame, hfit'⟩
        rw [hwrite hsame] at hfit'
        exact hfit hfit'
      simp only [extract, dif_neg h, if_neg hfit]
  refine ⟨⟨refuses, takes, fun _ => unfinished, write, fun _ => unfinished, extract⟩, ⟨?_, ?_⟩, rfl,
    rfl, fun _ => rfl⟩
  · intro entries tree htree e hlast
    have heq := (hextract entries).symm.trans htree
    split at heq
    next hfit =>
      rw [← Option.some.inj heq]
      exact treeOf_lastOf hfit hlast
    next => cases heq
  · intro entries hfit hnone
    have heq := (hextract entries).symm.trans hnone
    rw [if_pos hfit] at heq
    cases heq

end Ideal

end Wings
