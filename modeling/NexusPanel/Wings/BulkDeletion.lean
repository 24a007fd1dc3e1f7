import NexusPanel.Foundation.Removals
import NexusPanel.Wings.PathValidation
import NexusPanel.Wings.TenantFiles

/-!
# Deleting several entries

The route resolves every path before it deletes anything, and then deletes what the paths were
resolved to, one after the other. So it deletes what a link points to and not the link, fails on a
path that an earlier one has taken, and finds out only on the way that a path was never there.
-/

namespace Wings

open StateAction FS FileSystem

/-! ## What a deletion takes -/

/-- The paths that the requested ones are accepted as, if all of them are. -/
def acceptedAll (fs : FileSystem) (serverRoot : String) (requested : List String) :
    Option (List Path) :=
  requested.mapM fun r => (validatePath fs serverRoot r).toOption

section Accepted

variable {fs : FileSystem} {p : Path} {ps : List Path} {e : Path}

/-- One deletion takes the entry that the path ends in. -/
theorem deleteEntry_eq (p : Path) (fs : FileSystem) : deleteEntry p fs =
    match fs.entryOf p with
    | some e => (.ok (), fs.removeTree e)
    | none => (.error (.io "I/O error"), fs) := by
  have hok {f : FileSystem → Except IoError FileSystem} {fs' : FileSystem} (h : f fs = .ok fs') :
      change f fs = (.ok (), fs') := by
    simp only [change, h]
  have herror {f : FileSystem → Except IoError FileSystem} {e : IoError} (h : f fs = .error e) :
      change f fs = (.error (.io "I/O error"), fs) := by
    simp only [change, h]
  have hbranch : deleteEntry p fs =
      if fs.isDir p then change (fun fs => fs.removeDirAll p) fs
      else change (fun fs => fs.removeFile p) fs := by
    have hget : (StateAction.get : FileAction FileSystem) fs = (.ok fs, fs) := rfl
    unfold deleteEntry
    rw [bind_ok hget]
    split <;> rfl
  have hremoved := remove_eq fs p
  rw [hbranch]
  split at hremoved
  next hdir =>
    rw [if_pos hdir]
    cases hresult : fs.removeDirAll p with
    | ok fs' =>
      rw [hresult] at hremoved
      obtain ⟨e, hentry, hfs⟩ := Option.map_eq_some_iff.mp hremoved.symm
      rw [hok hresult, hentry, ← hfs]
    | error failure =>
      rw [hresult] at hremoved
      rw [herror hresult, Option.map_eq_none_iff.mp hremoved.symm]
  next hdir =>
    rw [if_neg hdir]
    cases hresult : fs.removeFile p with
    | ok fs' =>
      rw [hresult] at hremoved
      obtain ⟨e, hentry, hfs⟩ := Option.map_eq_some_iff.mp hremoved.symm
      rw [hok hresult, hentry, ← hfs]
    | error failure =>
      rw [hresult] at hremoved
      rw [herror hresult, Option.map_eq_none_iff.mp hremoved.symm]

theorem deleteEntries_cons (p : Path) (ps : List Path) (fs : FileSystem) :
    deleteEntries (p :: ps) fs =
      match fs.entryOf p with
      | some e => deleteEntries ps (fs.removeTree e)
      | none => (.error (.io "I/O error"), fs) := by
  have hcons : deleteEntries (p :: ps) = deleteEntry p >>= fun _ => deleteEntries ps := rfl
  have hdelete := deleteEntry_eq p fs
  rw [hcons]
  cases hentry : fs.entryOf p with
  | none =>
    rw [hentry] at hdelete
    rw [bind_error hdelete]
  | some e =>
    rw [hentry] at hdelete
    rw [bind_ok hdelete]

end Accepted

/-! ## The request -/

section Request

variable {fs : FileSystem} {serverRoot : String} {requested : List String} {ps : List Path}

theorem validatedAll_eq (fs : FileSystem) (serverRoot : String) (requested : List String) :
    (acceptedAll fs serverRoot requested = none ∧
        ∃ e, validatedAll serverRoot requested fs = (.error e, fs)) ∨
      ∃ ps, acceptedAll fs serverRoot requested = some ps ∧
        validatedAll serverRoot requested fs = (.ok ps, fs) := by
  induction requested with
  | nil => exact .inr ⟨[], rfl, rfl⟩
  | cons r rest ih =>
    have hvalidated := validated_eq serverRoot r fs
    have haccepted : acceptedAll fs serverRoot (r :: rest) =
        (validatePath fs serverRoot r).toOption.bind fun p =>
          (acceptedAll fs serverRoot rest).bind fun ps => some (p :: ps) := by
      unfold acceptedAll
      rw [List.mapM_cons]
      rfl
    unfold validatedAll
    rw [haccepted]
    cases hvalid : validatePath fs serverRoot r with
    | error e =>
      rw [hvalid] at hvalidated
      exact .inl ⟨rfl, e, bind_error hvalidated⟩
    | ok p =>
      rw [hvalid] at hvalidated
      rw [bind_ok hvalidated]
      rcases ih with ⟨hnone, e, herror⟩ | ⟨ps, hsome, hok⟩
      · rw [hnone]
        exact .inl ⟨rfl, e, bind_error herror⟩
      · rw [hsome]
        exact .inr ⟨p :: ps, rfl, bind_ok hok⟩

end Request

end Wings
