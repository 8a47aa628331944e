import Mathlib.Logic.Function.Basic

/-!
# Files behind descriptors

What the system calls on regular files do.  Paths lead to files, descriptors
to descriptions, and every description has a position of its own, where the
next bytes are written.  A description opened for appending is moved to the
end of its file first.  Calls are given with what the system answers to them;
one that fails changes nothing.

How paths are resolved is left open: many of them may lead to one file, by
their spelling or through links.  What a name space promises is that making a
file or removing a name leads no path to another file than before.

However a piece of data is split into writes, its bytes end up where one write
would have put them: that is what `Written` describes.
-/

namespace Posix

def O_RDONLY : Nat := 0

def O_RDWR : Nat := 0o2

def O_CREAT : Nat := 0o100

def O_TRUNC : Nat := 0o1000

def O_APPEND : Nat := 0o2000

/-- An open file description. -/
structure Description where
  file : Nat
  flags : Nat
  position : Nat
  deriving DecidableEq, Repr

namespace Description

def writable (description : Description) : Bool :=
  description.flags &&& 0o3 != O_RDONLY

def appends (description : Description) : Bool :=
  description.flags &&& O_APPEND != 0

end Description

section Contents

variable {α : Type} [Inhabited α]

/-- Bytes written at a position replace those that stand there.  A gap between
the end and the position is filled. -/
def overwrite (contents : List α) (position : Nat) (data : List α) : List α :=
  if data.isEmpty then contents
  else
    contents.take position ++
      List.replicate (position - contents.length) default ++ data ++
        contents.drop (position + data.length)

@[simp] theorem overwrite_nil (contents : List α) (position : Nat) :
    overwrite contents position [] = contents := rfl

theorem overwrite_of_ne_nil (contents : List α) (position : Nat)
    {data : List α} (nonempty : data ≠ []) :
    overwrite contents position data =
      contents.take position ++
        List.replicate (position - contents.length) default ++ data ++
          contents.drop (position + data.length) := by
  rw [overwrite, if_neg]
  rwa [List.isEmpty_iff]

theorem length_overwrite (contents : List α) (position : Nat) {data : List α}
    (nonempty : data ≠ []) :
    (overwrite contents position data).length =
      max contents.length (position + data.length) := by
  simp only [overwrite_of_ne_nil contents position nonempty,
    List.length_append, List.length_take, List.length_replicate,
    List.length_drop]
  omega

@[simp] theorem overwrite_length (contents data : List α) :
    overwrite contents contents.length data = contents ++ data := by
  by_cases empty : data = []
  · rw [empty, overwrite_nil, List.append_nil]
  · rw [overwrite_of_ne_nil contents contents.length empty, List.take_length,
      Nat.sub_self, List.replicate_zero, List.append_nil,
      List.drop_eq_nil_of_le (Nat.le_add_right _ _), List.append_nil]

/-- What stands before the position, with the gap filled. -/
private def front (contents : List α) (position : Nat) : List α :=
  contents.take position ++
    List.replicate (position - contents.length) default

private theorem length_front (contents : List α) (position : Nat) :
    (front contents position).length = position := by
  simp only [front, List.length_append, List.length_take,
    List.length_replicate]
  omega

private theorem overwrite_eq_front (contents : List α) (position : Nat)
    {data : List α} (nonempty : data ≠ []) :
    overwrite contents position data =
      front contents position ++ data ++
        contents.drop (position + data.length) :=
  overwrite_of_ne_nil contents position nonempty

/-- Data can be written in two parts. -/
theorem overwrite_append (contents : List α) (position : Nat)
    (data more : List α) :
    overwrite (overwrite contents position data) (position + data.length)
        more =
      overwrite contents position (data ++ more) := by
  by_cases noData : data = []
  · rw [noData, overwrite_nil, List.nil_append, List.length_nil, Nat.add_zero]
  by_cases noMore : more = []
  · rw [noMore, overwrite_nil, List.append_nil]
  have length : (front contents position ++ data).length =
      position + data.length := by
    rw [List.length_append, length_front]
  have reaches : position + data.length ≤
      (overwrite contents position data).length := by
    rw [length_overwrite contents position noData]
    exact Nat.le_max_right _ _
  have before : front (overwrite contents position data)
      (position + data.length) = front contents position ++ data := by
    rw [front, Nat.sub_eq_zero_of_le reaches, List.replicate_zero,
      List.append_nil, overwrite_eq_front contents position noData, ← length,
      List.take_left]
  have behind : (overwrite contents position data).drop
      (position + data.length + more.length) =
        contents.drop (position + (data ++ more).length) := by
    rw [overwrite_eq_front contents position noData, ← length,
      ← List.drop_drop, List.drop_left, List.drop_drop, length,
      List.length_append, Nat.add_assoc]
  rw [overwrite_eq_front _ _ noMore, before, behind,
    overwrite_eq_front contents position (by simp [noData]),
    List.append_assoc (front contents position)]

theorem overwrite_eq_append_iff {contents data : List α} {position : Nat} :
    overwrite contents position data = contents ++ data ↔
      data = [] ∨ position = contents.length := by
  constructor
  · intro appended
    by_cases empty : data = []
    · exact Or.inl empty
    · have length := congrArg List.length appended
      have positive := List.length_pos_iff.mpr empty
      rw [length_overwrite contents position empty,
        List.length_append] at length
      right
      omega
  · rintro (rfl | rfl)
    · exact (List.append_nil contents).symm
    · exact overwrite_length contents data

end Contents

/-- What paths lead to.  `created` is what `open` does to the names when it
makes the file, `unlinked` what `unlink` does. -/
class NameSpace (ν : Type) where
  lookup : ν → String → Option Nat
  created : (path : String) → (file : Nat) → ν → ν
  unlinked : (path : String) → ν → ν
  lookup_created_self : ∀ path file names,
    lookup (created path file names) path = some file
  lookup_created : ∀ path file names other,
    lookup (created path file names) other = some file ∨
      lookup (created path file names) other = lookup names other
  lookup_unlinked_self : ∀ path names, lookup (unlinked path names) path = none
  lookup_unlinked : ∀ path names other,
    lookup (unlinked path names) other = none ∨
      lookup (unlinked path names) other = lookup names other

namespace NameSpace

variable {ν : Type} [NameSpace ν] {path other : String} {file found : Nat}
  {names : ν}

theorem of_lookup_created
    (leads : lookup (created path file names) other = some found) :
    found = file ∨ lookup names other = some found := by
  rcases lookup_created path file names other with new | same
  · rw [new] at leads
    exact Or.inl (Option.some.inj leads).symm
  · exact Or.inr (same ▸ leads)

theorem of_lookup_unlinked
    (leads : lookup (unlinked path names) other = some found) :
    lookup names other = some found := by
  rcases lookup_unlinked path names other with gone | same
  · rw [gone] at leads
    cases leads
  · exact same ▸ leads

end NameSpace

/-- Names in directories, where paths may be spelled in many ways. -/
structure Entries (entry : String → String) where
  file : String → Option Nat

private theorem update_entry (entry : String → String)
    (names : String → Option Nat) (path other : String) (value : Option Nat) :
    Function.update names (entry path) value (entry other) = value ∨
      Function.update names (entry path) value (entry other) =
        names (entry other) := by
  by_cases same : entry other = entry path
  · rw [same, Function.update_self]
    exact Or.inl rfl
  · exact Or.inr (Function.update_of_ne same _ _)

instance (entry : String → String) : NameSpace (Entries entry) where
  lookup names path := names.file (entry path)
  created path file names :=
    ⟨Function.update names.file (entry path) (some file)⟩
  unlinked path names := ⟨Function.update names.file (entry path) none⟩
  lookup_created_self _ _ _ := Function.update_self _ _ _
  lookup_created path file names other :=
    update_entry entry names.file path other (some file)
  lookup_unlinked_self _ _ := Function.update_self _ _ _
  lookup_unlinked path names other :=
    update_entry entry names.file path other none

structure Files (ν α : Type) where
  paths : ν
  contents : Nat → List α
  descriptions : Int → Option Description
  nextFile : Nat

namespace Files

variable {ν α : Type}

/-- `open` has returned the descriptor. -/
def opened [NameSpace ν] (fd : Int) (path : String) (flags : Nat)
    (files : Files ν α) : Files ν α :=
  match NameSpace.lookup files.paths path with
  | some file =>
      { files with
        contents :=
          if flags &&& O_TRUNC ≠ 0 then
            Function.update files.contents file []
          else files.contents
        descriptions := Function.update files.descriptions fd
          (some { file, flags, position := 0 }) }
  | none =>
      if flags &&& O_CREAT ≠ 0 then
        { paths := NameSpace.created path files.nextFile files.paths
          contents := Function.update files.contents files.nextFile []
          descriptions := Function.update files.descriptions fd
            (some { file := files.nextFile, flags, position := 0 })
          nextFile := files.nextFile + 1 }
      else files

/-- `close` has released the descriptor. -/
def closed (fd : Int) (files : Files ν α) : Files ν α :=
  { files with descriptions := Function.update files.descriptions fd none }

/-- `unlink` has removed the path; descriptions keep their files. -/
def unlinked [NameSpace ν] (path : String) (files : Files ν α) : Files ν α :=
  { files with paths := NameSpace.unlinked path files.paths }

/-- Where the next bytes are written. -/
def start (files : Files ν α) (description : Description) : Nat :=
  if description.appends then (files.contents description.file).length
  else description.position

variable [Inhabited α]

/-- `write` has taken the bytes. -/
def written (fd : Int) (data : List α) (files : Files ν α) : Files ν α :=
  match files.descriptions fd with
  | none => files
  | some description =>
      { files with
        contents := Function.update files.contents description.file
          (overwrite (files.contents description.file)
            (files.start description) data)
        descriptions := Function.update files.descriptions fd
          (some { description with
            position := files.start description + data.length }) }

end Files

section AtEnd

variable {ν α : Type}

/-- The next bytes are written behind the last one. -/
def AtEnd (files : Files ν α) (description : Description) : Prop :=
  files.start description = (files.contents description.file).length

instance (files : Files ν α) (description : Description) :
    Decidable (AtEnd files description) :=
  inferInstanceAs (Decidable (_ = _))

theorem atEnd_of_appends {files : Files ν α} {description : Description}
    (appends : description.appends = true) : AtEnd files description :=
  if_pos appends

theorem atEnd_iff_of_not_appends {files : Files ν α}
    {description : Description} (own : description.appends = false) :
    AtEnd files description ↔
      description.position = (files.contents description.file).length := by
  rw [AtEnd, Files.start, own]
  exact Iff.rfl

/-- The files after data were written through a descriptor, in any number of
pieces: nothing else has changed but the position, and what is written next
follows. -/
structure Written [Inhabited α] (fd : Int) (description : Description)
    (data : List α) (before after : Files ν α) : Prop where
  paths : after.paths = before.paths
  nextFile : after.nextFile = before.nextFile
  contents : after.contents = Function.update before.contents
    description.file (overwrite (before.contents description.file)
      (before.start description) data)
  others : ∀ other, other ≠ fd →
    after.descriptions other = before.descriptions other
  own : ∃ position,
    after.descriptions fd = some { description with position } ∧
      after.start { description with position } =
        before.start description + data.length

variable [Inhabited α] {fd : Int} {description : Description}
  {data : List α} {before after : Files ν α}

namespace Written

theorem refl (opened : before.descriptions fd = some description) :
    Written fd description [] before before where
  paths := rfl
  nextFile := rfl
  contents := by rw [overwrite_nil, Function.update_eq_self]
  others _ _ := rfl
  own := ⟨description.position, opened, rfl⟩

theorem file (written : Written fd description data before after) :
    after.contents description.file =
      overwrite (before.contents description.file) (before.start description)
        data := by
  rw [written.contents, Function.update_self]

protected theorem written (written : Written fd description data before after)
    (more : List α) :
    Written fd description (data ++ more) before (after.written fd more) := by
  obtain ⟨position, opened, start⟩ := written.own
  simp only [Files.written, opened, start]
  constructor
  · exact written.paths
  · exact written.nextFile
  · simp only [written.contents, Function.update_self, Function.update_idem,
      overwrite_append]
  · intro other different
    simp only [Function.update_of_ne different]
    exact written.others other different
  · refine ⟨_, Function.update_self fd _ _, ?_⟩
    by_cases appends : description.appends = true
    · -- the position is not used, the file is longer by what was written
      have here : before.start description =
          (before.contents description.file).length := if_pos appends
      have grown : overwrite (before.contents description.file)
          (before.start description) data =
            before.contents description.file ++ data := by
        rw [here, overwrite_length]
      refine (if_pos appends).trans ?_
      simp only [Function.update_self, written.file, grown]
      rw [here, ← List.length_append, overwrite_length, List.length_append,
        List.length_append, List.length_append, Nat.add_assoc]
    · refine (if_neg appends).trans ?_
      rw [List.length_append, Nat.add_assoc]

variable (atEnd : AtEnd before description)

include atEnd in
theorem file_atEnd (written : Written fd description data before after) :
    after.contents description.file =
      before.contents description.file ++ data := by
  have here : before.start description =
      (before.contents description.file).length := atEnd
  rw [written.file, here, overwrite_length]

include atEnd in
theorem own_atEnd (written : Written fd description data before after) :
    ∃ position, after.descriptions fd = some { description with position } ∧
      AtEnd after { description with position } := by
  obtain ⟨position, opened, start⟩ := written.own
  refine ⟨position, opened, start.trans ?_⟩
  have here : before.start description =
      (before.contents description.file).length := atEnd
  rw [written.file_atEnd atEnd, List.length_append, here]

end Written

/-- A description with a position of its own is left behind by what is written
through another one, and overwrites it. -/
theorem contents_left_behind {other : Int} {otherDescription : Description}
    (opened : before.descriptions fd = some description)
    (otherOpened : before.descriptions other = some otherDescription)
    (apart : fd ≠ other) (sameFile : description.file = otherDescription.file)
    (own : description.appends = false) (atEnd : AtEnd before description)
    (otherAtEnd : AtEnd before otherDescription) (data more : List α) :
    ((before.written other data).written fd more).contents description.file =
      overwrite (before.contents description.file ++ data)
        (before.contents description.file).length more := by
  have first := (Written.refl otherOpened).written data
  rw [List.nil_append] at first
  have grown := first.file_atEnd otherAtEnd
  have still := (first.others fd apart).trans opened
  have second := ((Written.refl still).written more).file
  have start : (before.written other data).start description =
      (before.contents description.file).length := by
    rw [Files.start, own]
    exact (atEnd_iff_of_not_appends own).mp atEnd
  rw [List.nil_append, start, sameFile, grown] at second
  rw [sameFile]
  exact second

end AtEnd

end Posix
