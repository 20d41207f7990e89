import IQzip.CommandLine

/-! # The command lines of the tool

Which command lines `main` accepts, and what it makes of them. `Spells` is the grammar, written as
rules: an option is a dash and a letter, a number stands behind the letter or in the next argument.
`main_iff` says that `main` accepts the command lines of the grammar and no others, and that what it
goes on to do is a matter of which options are there and of the last operand of each number. -/

namespace IQzip

open Library

/-! ## The grammar -/

/-- An argument that starts an option. -/
def IsOption (opt : CString) (o : CommandOption ⊕ NumberOption) : Prop :=
  opt.char 0 = '-' ∧ optionOf (opt.char 1) = some o

/-- The arguments spell the options. What follows the letter of an option without a number is not
looked at. -/
inductive Spells : List CommandOption → List CString → Prop
  | nil : Spells [] []
  | plain {opt o os args} (h : IsOption opt (.inl o)) (hrest : Spells os args) :
      Spells (o :: os) (opt :: args)
  | attached {opt p os args} (h : IsOption opt (.inr p)) (hlen : opt.length ≠ 2)
      (hrest : Spells os args) : Spells (.number p (opt.drop 2) :: os) (opt :: args)
  | detached {opt operand p os args} (h : IsOption opt (.inr p)) (hlen : opt.length = 2)
      (hdash : operand.char 0 ≠ '-') (hrest : Spells os args) :
      Spells (.number p operand :: os) (opt :: operand :: args)

/-- An option with the operand in the same argument, or without one. -/
theorem headOption_eq_false_iff {opt next : CString} {o : CommandOption} :
    headOption opt next = some (o, false)
      ↔ IsOption opt (.inl o)
        ∨ ∃ p, IsOption opt (.inr p) ∧ opt.length ≠ 2 ∧ o = .number p (opt.drop 2) := by
  unfold headOption IsOption
  by_cases hdash : opt.char 0 = '-'
  · rw [if_neg (not_not.mpr hdash)]
    cases hletter : optionOf (opt.char 1) with
    | none => simp
    | some x =>
      cases x with
      | inl o' => simp [hdash]
      | inr p =>
        by_cases hlen : opt.length = 2
        · by_cases hnext : next.char 0 = '-' <;> simp [hlen, hnext]
        · simp [hdash, hlen, eq_comm]
  · simp [hdash]

/-- An option with its operand in the next argument. -/
theorem headOption_eq_true_iff {opt next : CString} {o : CommandOption} :
    headOption opt next = some (o, true)
      ↔ ∃ p, IsOption opt (.inr p) ∧ opt.length = 2 ∧ next.char 0 ≠ '-' ∧ o = .number p next := by
  unfold headOption IsOption
  by_cases hdash : opt.char 0 = '-'
  · rw [if_neg (not_not.mpr hdash)]
    cases hletter : optionOf (opt.char 1) with
    | none => simp
    | some x =>
      cases x with
      | inl o' => simp
      | inr p =>
        by_cases hlen : opt.length = 2
        · by_cases hnext : next.char 0 = '-'
          · simp [hlen, hnext]
          · simp [hdash, hlen, hnext, eq_comm]
        · simp [hlen]
  · simp [hdash]

section Read

variable {os : List CommandOption} {args files : List CString} {infn outfn : CString}

/-- **What is read was spelled.** -/
theorem spells_of_readOptions (h : readOptions args = some (os, files)) :
    ∃ head, args = head ++ files ∧ Spells os head := by
  -- on the reader's own recursion: a wrong argument, two kinds of options, the files
  fun_induction readOptions args generalizing os files with
  | case1 => cases h
  | case2 opt next last args o hhead ih =>
    obtain ⟨⟨os', files'⟩, hrest, heq⟩ := Option.map_eq_some_iff.mp h
    cases heq
    obtain ⟨head, happend, hspells⟩ := ih hrest
    refine ⟨opt :: head, by rw [happend, List.cons_append], ?_⟩
    rcases headOption_eq_false_iff.mp hhead with hopt | ⟨p, hopt, hlen, rfl⟩
    · exact .plain hopt hspells
    · exact .attached hopt hlen hspells
  | case3 opt next last args o hhead ih =>
    obtain ⟨⟨os', files'⟩, hrest, heq⟩ := Option.map_eq_some_iff.mp h
    cases heq
    obtain ⟨head, happend, hspells⟩ := ih hrest
    refine ⟨opt :: next :: head, by rw [happend, List.cons_append, List.cons_append], ?_⟩
    obtain ⟨p, hopt, hlen, hnext, rfl⟩ := headOption_eq_true_iff.mp hhead
    exact .detached hopt hlen hnext hspells
  | case4 files' =>
    cases h
    exact ⟨[], rfl, .nil⟩

/-- At most two arguments are left as files. -/
theorem length_files_le (h : readOptions args = some (os, files)) : files.length ≤ 2 := by
  fun_induction readOptions args generalizing os files with
  | case1 => cases h
  | case2 opt next last args o hhead ih =>
    obtain ⟨⟨os', files'⟩, hrest, heq⟩ := Option.map_eq_some_iff.mp h
    cases heq
    exact ih hrest
  | case3 opt next last args o hhead ih =>
    obtain ⟨⟨os', files'⟩, hrest, heq⟩ := Option.map_eq_some_iff.mp h
    cases heq
    exact ih hrest
  | case4 files' hshort =>
    cases h
    rcases files' with _ | ⟨opt, _ | ⟨next, _ | ⟨last, args⟩⟩⟩
    · simp
    · simp
    · simp
    · exact absurd rfl (hshort opt next last args)

/-- The options and two files are at least two arguments. -/
theorem exists_cons_cons (args : List CString) (infn outfn : CString) :
    ∃ next last rest, args ++ [infn, outfn] = next :: last :: rest := by
  match args with
  | [] => exact ⟨infn, outfn, [], rfl⟩
  | [next] => exact ⟨next, infn, [outfn], rfl⟩
  | next :: last :: rest => exact ⟨next, last, rest ++ [infn, outfn], rfl⟩

/-- **What is spelled is read**, in front of two files. -/
theorem readOptions_of_spells (h : Spells os args) :
    readOptions (args ++ [infn, outfn]) = some (os, [infn, outfn]) := by
  induction h with
  | nil => rfl
  | @plain opt o os args hopt _ ih =>
    obtain ⟨next, last, rest, hargs⟩ := exists_cons_cons args infn outfn
    rw [hargs] at ih
    rw [List.cons_append, hargs, readOptions, headOption_eq_false_iff.mpr (Or.inl hopt), ih]
    rfl
  | @attached opt p os args hopt hlen _ ih =>
    obtain ⟨next, last, rest, hargs⟩ := exists_cons_cons args infn outfn
    rw [hargs] at ih
    rw [List.cons_append, hargs, readOptions,
      headOption_eq_false_iff.mpr (Or.inr ⟨p, hopt, hlen, rfl⟩), ih]
    rfl
  | @detached opt operand p os args hopt hlen hdash _ ih =>
    obtain ⟨next, last, rest, hargs⟩ := exists_cons_cons args infn outfn
    rw [hargs] at ih
    rw [List.cons_append, List.cons_append, hargs, readOptions,
      headOption_eq_true_iff.mpr ⟨p, hopt, hlen, hdash, rfl⟩, ih]
    rfl

end Read

/-! ## The command -/

/-- A number: what `atoi` and the narrowing make of the last operand, or the default. -/
def NumberOption.value (p : NumberOption) (os : List CommandOption) : Nat :=
  ((lastSome p.operandOf os).map p.narrowed).getD (p.target .initial)

/-- What the tool is told to do. -/
def commandSpec (os : List CommandOption) (infn outfn : CString) : Command :=
  if .decompress ∈ os then .decompress infn outfn
  else
    .compress
      (commandLineConfig (if .noPreprocessing ∈ os then 0 else 1) (if .msbFirst ∈ os then 0 else 1)
        (if .signedSamples ∈ os then 0 else 1) (if .restrictedCodes ∈ os then 1 else 0)
        (BitVec.ofNat 8 (NumberOption.sampleResolution.value os))
        (BitVec.ofNat 8 (NumberOption.referenceSampleInterval.value os))
        (BitVec.ofNat 16 (NumberOption.blockSize.value os)))
      infn outfn

/-- A variable that one option sets says whether the option was given. -/
theorem read_options {γ : Type} (read : Options → γ) (a : CommandOption) (c : γ)
    (ha : ∀ o, read (a.apply o) = c) (hothers : ∀ x, x ≠ a → ∀ o, read (x.apply o) = read o)
    (os : List CommandOption) :
    read (os.foldl CommandOption.apply .initial) = if a ∈ os then c else read .initial := by
  refine read_foldl_mem ?_ os Options.initial
  intro o x
  split_ifs with hx
  · rw [hx, ha]
  · exact hothers x hx o

/-- The options without a number, behind the loop. -/
theorem flags_foldl (os : List CommandOption) :
    let o := os.foldl CommandOption.apply .initial
    o.dflag = (if .decompress ∈ os then true else false)
      ∧ o.enablePreprocessing = (if .noPreprocessing ∈ os then 0 else 1)
      ∧ o.endianness = (if .msbFirst ∈ os then 0 else 1)
      ∧ o.dataSense = (if .signedSamples ∈ os then 0 else 1)
      ∧ o.restrictedCodes = (if .restrictedCodes ∈ os then 1 else 0) := by
  refine ⟨read_options Options.dflag .decompress true (fun _ => rfl) ?_ os,
    read_options Options.enablePreprocessing .noPreprocessing 0 (fun _ => rfl) ?_ os,
    read_options Options.endianness .msbFirst 0 (fun _ => rfl) ?_ os,
    read_options Options.dataSense .signedSamples 0 (fun _ => rfl) ?_ os,
    read_options Options.restrictedCodes .restrictedCodes 1 (fun _ => rfl) ?_ os⟩
  -- no option but its own sets a variable
  all_goals
    intro x hx o
    cases x with
    | number p operand => cases p <;> rfl
    | _ => first | rfl | exact absurd rfl hx

/-- A number behind the loop, as the variable it is in. -/
theorem ofNat_value {w : Nat} (p : NumberOption) (os : List CommandOption)
    (read : Options → BitVec w) (h : ∀ o, p.target o = (read o).toNat) :
    read (os.foldl CommandOption.apply .initial) = BitVec.ofNat w (p.value os) := by
  rw [NumberOption.value, ← p.target_foldl os Options.initial, h, BitVec.ofNat_toNat,
    BitVec.setWidth_eq]

/-- **What `main` goes on to do** with options and two files: no order counts but that of the
operands of one option. -/
theorem commandOf_eq (os : List CommandOption) (infn outfn : CString) :
    commandOf os [infn, outfn] = some (commandSpec os infn outfn) := by
  obtain ⟨hdflag, hpre, hend, hsense, hrestricted⟩ := flags_foldl os
  have hresolution := ofNat_value .sampleResolution os Options.sampleResolution fun _ => rfl
  have hinterval := ofNat_value .referenceSampleInterval os Options.referenceSampleInterval
    fun _ => rfl
  have hsize := ofNat_value .blockSize os Options.blockSize fun _ => rfl
  simp only [commandOf, commandSpec, hdflag, hpre, hend, hsense, hrestricted, hresolution,
    hinterval, hsize]
  by_cases hd : .decompress ∈ os <;> simp [hd]

/-- **The command lines that `main` accepts, and what they mean.** For every argument vector and
every command: `main` goes on to it exactly when the arguments spell options in front of two file
names and it is the command of those options. -/
theorem main_iff {argv : List CString} {cmd : Command} :
    main argv = some cmd
      ↔ ∃ os args infn outfn, argv.drop 1 = args ++ [infn, outfn] ∧ Spells os args
        ∧ cmd = commandSpec os infn outfn := by
  rw [main_eq]
  constructor
  · intro h
    obtain ⟨⟨os, files⟩, hread, hcommand⟩ := Option.bind_eq_some_iff.mp h
    obtain ⟨args, happend, hspells⟩ := spells_of_readOptions hread
    have hle := length_files_le hread
    change commandOf os files = some cmd at hcommand
    match files with
    | [] => cases hcommand
    | [_] => cases hcommand
    | [infn, outfn] =>
      rw [commandOf_eq] at hcommand
      exact ⟨os, args, infn, outfn, happend, hspells, (Option.some.inj hcommand).symm⟩
    | _ :: _ :: _ :: rest =>
      simp only [List.length_cons] at hle
      omega
  · rintro ⟨os, args, infn, outfn, happend, hspells, rfl⟩
    rw [happend, readOptions_of_spells hspells]
    exact commandOf_eq os infn outfn

/-! ## Typing options -/

/-- The letter of an option that takes a number. -/
def NumberOption.letter : NumberOption → Char
  | .blockSize => 'j'
  | .sampleResolution => 'n'
  | .referenceSampleInterval => 'r'

/-- How an option can be typed: an operand that starts with a dash has to stand behind the letter,
any other can be an argument of its own. -/
def CommandOption.typed : CommandOption → List CString
  | .noPreprocessing => [['-', 'N']]
  | .decompress => [['-', 'd']]
  | .msbFirst => [['-', 'm']]
  | .signedSamples => [['-', 's']]
  | .restrictedCodes => [['-', 't']]
  | .number p operand =>
    if operand.char 0 = '-' then ['-' :: p.letter :: operand] else [['-', p.letter], operand]

theorem NumberOption.isOption (p : NumberOption) (operand : CString) :
    IsOption ('-' :: p.letter :: operand) (.inr p) := by
  cases p <;> exact ⟨rfl, rfl⟩

/-- One option and then others. -/
theorem Spells.typed_append {os : List CommandOption} {args : List CString} (h : Spells os args)
    (o : CommandOption) : Spells (o :: os) (o.typed ++ args) := by
  cases o with
  | number p operand =>
    simp only [CommandOption.typed]
    by_cases hdash : operand.char 0 = '-'
    · rw [if_pos hdash]
      -- the operand is not empty, so the argument is longer than its letter
      have hlen : ('-' :: p.letter :: operand).length ≠ 2 := by
        cases operand with
        | nil => exact absurd hdash (by decide)
        | cons c operand => simp
      exact .attached (p.isOption operand) hlen h
    · rw [if_neg hdash]
      exact .detached (p.isOption []) rfl hdash h
  | _ => exact .plain ⟨rfl, rfl⟩ h

/-- **Every option list can be typed**, whatever the operands: `main` reads it back. -/
theorem main_typed (program infn outfn : CString) (os : List CommandOption) :
    main (program :: (os.flatMap CommandOption.typed ++ [infn, outfn]))
      = some (commandSpec os infn outfn) := by
  have hspells : Spells os (os.flatMap CommandOption.typed) := by
    induction os with
    | nil => exact .nil
    | cons o os ih => exact ih.typed_append o
  rw [main_eq, List.drop_one, List.tail_cons, readOptions_of_spells hspells]
  exact commandOf_eq os infn outfn

end IQzip
