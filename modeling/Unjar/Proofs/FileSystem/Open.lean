import Unjar.Proofs.FileSystem.Enclosing

/-!
Room for what is put below a directory: when the directories on its way can be made, and what is done then.
-/

namespace Unjar

namespace Path

/-- A path that is not refused lies in a directory whose path is not refused either. -/
theorem standing_enclosing {base : Path} {names : List Bytes} (named : base.cleaned.names ≠ []) (valid : AllNames names)
    (down : names ≠ []) (spelled : (base.clean.descendant names).fault? = none) :
    (base.clean.enclosing names).standing = .ok () := by
  obtain ⟨front, name, rfl⟩ := (List.eq_nil_or_concat' names).resolve_left down
  rw [enclosing, List.dropLast_concat]
  split
  · rename_i top
    subst top
    obtain ⟨above, last, split⟩ := (List.eq_nil_or_concat' base.cleaned.names).resolve_left named
    have validBase := names_cleaned base
    have text : base.clean = base.cleaned.origin.path.descendant (above ++ [last]) := by
      rw [clean_eq, Cleaned.path, split]
    rw [split] at validBase
    have spelledBase : base.clean.fault? = none := by
      rw [text] at spelled ⊢
      rw [← descendant_append] at spelled
      exact fault?_parent _ (validBase.append valid) (by simp) spelled
    have untrimmed : base.clean.trimmed = base.clean := by
      rw [text, descendant_concat, trimmed_child _ (validBase last (by simp))]
    rw [untrimmed]
    exact FileSystem.standing_of_spelled spelledBase
  · rename_i deep
    exact FileSystem.standing_of_spelled (fault?_parent _ valid deep spelled)

end Path

namespace FileSystem

variable {origin fs prepared : FileSystem} {base : Path} {l : Location} {names : List Bytes}

/-- Names that fit, with nothing but directories on their way. -/
structure Open (fs : FileSystem) (l : Location) (names : List Bytes) : Prop where
  fits : ∀ name ∈ names, name.length ≤ nameMax
  way : ∀ front, front ≠ [] → front <+: names → fs.node? (l ++ front) = none ∨ fs.isDirectoryAt (l ++ front) = true

theorem Open.ensure (isOpen : fs.Open l names) : (fs.ensure l names).1 = .ok () := by
  induction names generalizing fs l with
  | nil => rfl
  | cons name rest ih =>
    have fits := isOpen.fits name List.mem_cons_self
    have later : ∀ name ∈ rest, name.length ≤ nameMax := fun other member =>
      isOpen.fits other (List.mem_cons_of_mem _ member)
    rw [FileSystem.ensure, if_neg (by omega)]
    cases atNode : fs.node? (l ++ [name]) with
    | none =>
      refine ih ⟨later, fun front some isFront => ?_⟩
      have longer : l ++ [name] ++ front ≠ l ++ [name] := by simpa using some
      rw [node?_put, isDirectoryAt_put, if_neg longer, if_neg longer, ← List.append_cons]
      exact isOpen.way (name :: front) (by simp) ((List.prefix_cons_inj name).mpr isFront)
    | some node =>
      have directory : fs.isDirectoryAt (l ++ [name]) = true := by
        refine (isOpen.way [name] (by simp) ((List.prefix_cons_inj name).mpr List.nil_prefix)).resolve_left ?_
        rw [atNode]
        simp
      obtain ⟨mode, there⟩ := isDirectoryAt_iff.mp directory
      rw [atNode] at there
      cases there
      refine ih ⟨later, fun front some isFront => ?_⟩
      rw [← List.append_cons]
      exact isOpen.way (name :: front) (by simp) ((List.prefix_cons_inj name).mpr isFront)

/-- Directories are made along names just if nothing else is on their way. -/
theorem Sound.ensure_iff (sound : fs.Sound) (here : fs.isDirectoryAt l = true) (valid : AllNames names) :
    (∃ prepared, fs.ensure l names = (.ok (), prepared)) ↔ fs.Open l names := by
  constructor
  · rintro ⟨prepared, made⟩
    have directory := ensure_ok sound here valid made
    obtain ⟨soundMade, adds⟩ := sound.ensure here valid
    rw [made] at soundMade adds
    obtain ⟨mode, there⟩ := isDirectoryAt_iff.mp directory
    refine ⟨fun name member => ?_, fun front some isFront => ?_⟩
    · exact (soundMade.names _ (by rw [there]; rfl)).2 name (List.mem_append_right l member)
    · have passed := soundMade.directory_of_prefix directory ((List.prefix_append_right_inj l).mpr isFront)
      rcases adds.nodes (l ++ front) with same | ⟨vacant, _, _⟩
      · exact Or.inr (by rw [isDirectoryAt, ← same]; exact passed)
      · exact Or.inl vacant
  · exact fun isOpen => ⟨_, Prod.ext isOpen.ensure rfl⟩

/-- The directory for a file is made along the names above it. -/
theorem Within.makeDirectories_enclosing (within : Within base l origin fs) (valid : AllNames names) (down : names ≠ [])
    (spelled : (base.descendant names).fault? = none) (standing : (base.enclosing names).standing = .ok ()) :
    fs.makeDirectories (base.enclosing names) = fs.ensure l names.dropLast := by
  unfold Path.enclosing at standing ⊢
  split
  · rename_i top
    rw [if_pos top] at standing
    rw [within.leads.trimmed.makeDirectories, standing, top]
    rfl
  · rename_i deep
    obtain ⟨front, name, rfl⟩ := (List.eq_nil_or_concat' names).resolve_left down
    rw [List.dropLast_concat] at deep ⊢
    rw [makeDirectories_descendant within.sound within.leads within.free valid.left deep,
      Path.fault?_parent base valid deep spelled]

/-- The mode of a directory that is there is set. -/
theorem Within.changeMode_directory (within : Within base l origin fs) (valid : AllNames names) (down : names ≠ [])
    (spelled : (base.descendant names).fault? = none) (directory : fs.isDirectoryAt (l ++ names) = true) (mode : Nat) :
    fs.changeMode (base.descendant names) mode = .ok (fs.put (l ++ names) (.directory mode)) := by
  obtain ⟨old, there⟩ := isDirectoryAt_iff.mp directory
  rw [FileSystem.changeMode, within.leads.locate_of_node within.sound within.free valid down spelled (by rw [there]; rfl)]
  simp only [bind, Except.bind, there]
  rfl

theorem Within.changeMode_file (within : Within base l origin fs) (valid : AllNames names) (down : names ≠ [])
    (spelled : (base.descendant names).fault? = none) {old : Nat} {data : Bytes}
    (there : fs.node? (l ++ names) = some (.file old data)) (mode : Nat) :
    fs.changeMode (base.descendant names) mode = .ok (fs.put (l ++ names) (.file mode data)) := by
  rw [FileSystem.changeMode, within.leads.locate_of_node within.sound within.free valid down spelled (by rw [there]; rfl)]
  simp only [bind, Except.bind, there]
  rfl

end FileSystem

end Unjar
