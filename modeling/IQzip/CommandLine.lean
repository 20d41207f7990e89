import IQzip.HeaderShape
import IQzip.Library.LastWrite
import Mathlib.Data.Nat.Digits.Defs

/-! # The command line of the tool

`main` of the command-line tool reads its options with an index into `argv` that two functions
advance, and hands what it read to `create_compressor`. The numbers of `-j`, `-n` and `-r` pass
through `atoi` and are then narrowed to 16 or 8 bits.

`optionLoop_eq` shows that the loop reads the options of `readOptions`, the grammar of the command
line; `main_numbers_iff` says for which operands the numbers handed over are the numbers typed. -/

namespace IQzip

open Library

/-- A C string, without the zero behind its last character. -/
abbrev CString := List Char

/-- `s[i]`; behind the last character stands the zero. -/
def CString.char (s : CString) (i : Nat) : Char := s.getD i (Char.ofNat 0)

/-! ## `atoi` -/

/-- `isspace` of the C locale. -/
def isSpace (c : Char) : Bool := c = ' ' || (9 ≤ c.toNat && c.toNat ≤ 13)

/-- `isdigit`. -/
def isDigit (c : Char) : Bool := 48 ≤ c.toNat && c.toNat ≤ 57

/-- The value of a digit. -/
def digit (c : Char) : Nat := c.toNat - 48

/-- The digits at the head of a string, read into `acc`. -/
def scanDigits (acc : Nat) : CString → Nat
  | [] => acc
  | c :: s => if isDigit c then scanDigits (10 * acc + digit c) s else acc

/-- `strtol(s, NULL, 10)`: white space and a sign are skipped, what follows the digits is ignored,
and a number that `long` cannot hold is replaced by the nearest one it can. -/
def strtol (s : CString) : Int :=
  match s.dropWhile isSpace with
  | '-' :: t => max (-(2 ^ 63)) (-(scanDigits 0 t : Int))
  | '+' :: t => min (2 ^ 63 - 1) (scanDigits 0 t)
  | t => min (2 ^ 63 - 1) (scanDigits 0 t)

/-- `atoi`: the result of `strtol` converted to `int`. -/
def atoi (s : CString) : Int := (strtol s).bmod (2 ^ 32)

/-! ## `get_param` and `main` -/

/-- `argv[i]`; the loop never passes the end of the array. -/
def argAt (argv : List CString) (i : Nat) : CString := argv.getD i []

/-- `get_param` for a parameter of `w` bits: the number and the advanced index, or nothing when it
returns 1. -/
def getParam (w : Nat) (argv : List CString) (iarg : Nat) : Option (BitVec w × Nat) :=
  if (argAt argv iarg).length = 2 then
    let iarg := iarg + 1
    if (argAt argv iarg).char 0 = '-' then none
    else some (BitVec.ofInt w (atoi (argAt argv iarg)), iarg)
  else some (BitVec.ofInt w (atoi ((argAt argv iarg).drop 2)), iarg)

/-- The variables of `main` that the options set. -/
structure Options where
  dflag : Bool
  enablePreprocessing : U8
  endianness : U8
  dataSense : U8
  restrictedCodes : U8
  sampleResolution : U8
  referenceSampleInterval : U8
  blockSize : U16
  deriving DecidableEq

/-- Their initial values. -/
def Options.initial : Options :=
  { dflag := false
    enablePreprocessing := 1
    endianness := 1
    dataSense := 1
    restrictedCodes := 0
    sampleResolution := 8
    referenceSampleInterval := 1
    blockSize := 64 }

/-- The body of the loop `while (iarg < argc - 2)`, without the last `iarg++`; nothing stands for
`goto FAIL`. -/
def optionStep (argv : List CString) (o : Options) (iarg : Nat) : Option (Options × Nat) :=
  let opt := argAt argv iarg
  if opt.char 0 ≠ '-' then none
  else
    match opt.char 1 with
    | 'N' => some ({ o with enablePreprocessing := 0 }, iarg)
    | 'd' => some ({ o with dflag := true }, iarg)
    | 'j' => (getParam 16 argv iarg).map fun (v, iarg) => ({ o with blockSize := v }, iarg)
    | 'm' => some ({ o with endianness := 0 }, iarg)
    | 'n' => (getParam 8 argv iarg).map fun (v, iarg) => ({ o with sampleResolution := v }, iarg)
    | 'r' =>
      (getParam 8 argv iarg).map fun (v, iarg) => ({ o with referenceSampleInterval := v }, iarg)
    | 's' => some ({ o with dataSense := 0 }, iarg)
    | 't' => some ({ o with restrictedCodes := 1 }, iarg)
    | _ => none

/-- `get_param` does not go back. -/
theorem getParam_le {w : Nat} {argv : List CString} {iarg next : Nat} {v : BitVec w}
    (h : getParam w argv iarg = some (v, next)) : iarg ≤ next := by
  unfold getParam at h
  dsimp only at h
  split_ifs at h
  · cases h
    exact Nat.le_succ iarg
  · cases h
    exact Nat.le_refl iarg

/-- Neither does the body of the loop. -/
theorem optionStep_le {argv : List CString} {o o' : Options} {iarg next : Nat}
    (h : optionStep argv o iarg = some (o', next)) : iarg ≤ next := by
  have hparam : ∀ (w : Nat) (set : BitVec w × Nat → Options × Nat), (∀ p, (set p).2 = p.2) →
      (getParam w argv iarg).map set = some (o', next) → iarg ≤ next := by
    intro w set hset hmap
    obtain ⟨⟨v, n⟩, hget, heq⟩ := Option.map_eq_some_iff.mp hmap
    have hnext : n = next := (hset (v, n)).symm.trans (congrArg Prod.snd heq)
    exact hnext ▸ getParam_le hget
  unfold optionStep at h
  dsimp only at h
  split_ifs at h
  -- flags leave the index where it is
  split at h <;>
    first
    | exact hparam 16 _ (fun _ => rfl) h
    | exact hparam 8 _ (fun _ => rfl) h
    | (cases h; exact Nat.le_refl iarg)
    | cases h

/-- The loop from an index on. -/
def optionLoop (argv : List CString) (o : Options) (iarg : Nat) : Option (Options × Nat) :=
  if iarg + 2 < argv.length then
    match hstep : optionStep argv o iarg with
    | none => none
    | some (o', next) => optionLoop argv o' (next + 1)
  else some (o, iarg)
termination_by argv.length - iarg
decreasing_by
  have := optionStep_le hstep
  omega

/-- What `main` goes on to do. -/
inductive Command
  | compress (cfg : Config) (infn outfn : CString)
  | decompress (infn outfn : CString)
  deriving DecidableEq

/-- `main` up to the call of `create_compressor` or `create_decompressor`; nothing stands for
`FAIL`. -/
def main (argv : List CString) : Option Command :=
  match optionLoop argv .initial 1 with
  | none => none
  | some (o, iarg) =>
    if argv.length < iarg + 2 then none
    else
      let infn := argAt argv iarg
      let outfn := argAt argv (iarg + 1)
      if o.dflag then some (.decompress infn outfn)
      else
        some (.compress
          (commandLineConfig o.enablePreprocessing o.endianness o.dataSense o.restrictedCodes
            o.sampleResolution o.referenceSampleInterval o.blockSize)
          infn outfn)

/-! ## The grammar of the command line -/

/-- The options that take a number: `-j`, `-n` and `-r`. -/
inductive NumberOption
  | blockSize
  | sampleResolution
  | referenceSampleInterval
  deriving DecidableEq

/-- An option as it was given, with its operand. -/
inductive CommandOption
  | noPreprocessing
  | decompress
  | msbFirst
  | signedSamples
  | restrictedCodes
  | number (p : NumberOption) (operand : CString)
  deriving DecidableEq

/-- The option a letter stands for; one that takes a number still lacks it. -/
def optionOf : Char → Option (CommandOption ⊕ NumberOption)
  | 'N' => some (.inl .noPreprocessing)
  | 'd' => some (.inl .decompress)
  | 'j' => some (.inr .blockSize)
  | 'm' => some (.inl .msbFirst)
  | 'n' => some (.inr .sampleResolution)
  | 'r' => some (.inr .referenceSampleInterval)
  | 's' => some (.inl .signedSamples)
  | 't' => some (.inl .restrictedCodes)
  | _ => none

/-- The option that `opt` gives when `next` follows it, and whether `next` is its operand. -/
def headOption (opt next : CString) : Option (CommandOption × Bool) :=
  if opt.char 0 ≠ '-' then none
  else
    match optionOf (opt.char 1) with
    | none => none
    | some (.inl o) => some (o, false)
    | some (.inr p) =>
      if opt.length = 2 then
        if next.char 0 = '-' then none else some (.number p next, true)
      else some (.number p (opt.drop 2), false)

/-- The options at the head of the arguments, and the arguments behind them. The last two arguments
are the files. -/
def readOptions : List CString → Option (List CommandOption × List CString)
  | opt :: next :: last :: args =>
    match headOption opt next with
    | none => none
    | some (o, false) =>
      (readOptions (next :: last :: args)).map fun (os, files) => (o :: os, files)
    | some (o, true) => (readOptions (last :: args)).map fun (os, files) => (o :: os, files)
  | files => some ([], files)

/-- What an option sets. A number is what `atoi` makes of the operand, narrowed to the variable. -/
def CommandOption.apply (o : Options) : CommandOption → Options
  | .noPreprocessing => { o with enablePreprocessing := 0 }
  | .decompress => { o with dflag := true }
  | .msbFirst => { o with endianness := 0 }
  | .signedSamples => { o with dataSense := 0 }
  | .restrictedCodes => { o with restrictedCodes := 1 }
  | .number .blockSize operand => { o with blockSize := BitVec.ofInt 16 (atoi operand) }
  | .number .sampleResolution operand =>
    { o with sampleResolution := BitVec.ofInt 8 (atoi operand) }
  | .number .referenceSampleInterval operand =>
    { o with referenceSampleInterval := BitVec.ofInt 8 (atoi operand) }

/-- What the options and the arguments behind them make the tool do. -/
def commandOf (os : List CommandOption) : List CString → Option Command
  | infn :: outfn :: _ =>
    let o := os.foldl CommandOption.apply .initial
    if o.dflag then some (.decompress infn outfn)
    else
      some (.compress
        (commandLineConfig o.enablePreprocessing o.endianness o.dataSense o.restrictedCodes
          o.sampleResolution o.referenceSampleInterval o.blockSize)
        infn outfn)
  | _ => none

/-! ## The loop reads the grammar -/

section Loop

variable {argv : List CString} {iarg : Nat} {opt next : CString} {args : List CString}

/-- The argument at the head of the rest. -/
theorem argAt_of_drop (h : argv.drop iarg = opt :: args) : argAt argv iarg = opt := by
  have hget : (argv.drop iarg)[0]? = some opt := by rw [h]; rfl
  rw [List.getElem?_drop, Nat.add_zero] at hget
  rw [argAt, List.getD_eq_getElem?_getD, hget, Option.getD_some]

/-- The rest behind it. -/
theorem drop_succ_of_drop (h : argv.drop iarg = opt :: args) : argv.drop (iarg + 1) = args := by
  rw [← List.tail_drop, h, List.tail_cons]

/-- `get_param` takes the rest of the argument, or the next one. -/
theorem getParam_eq (w : Nat) (h : argv.drop iarg = opt :: next :: args) :
    getParam w argv iarg
      = if opt.length = 2 then
          if next.char 0 = '-' then none else some (BitVec.ofInt w (atoi next), iarg + 1)
        else some (BitVec.ofInt w (atoi (opt.drop 2)), iarg) := by
  simp only [getParam, argAt_of_drop h, argAt_of_drop (drop_succ_of_drop h)]

/-- **The body of the loop** reads one option of the grammar. -/
theorem optionStep_eq (o : Options) (h : argv.drop iarg = opt :: next :: args) :
    optionStep argv o iarg
      = (headOption opt next).map fun (c, detached) =>
          (c.apply o, if detached then iarg + 1 else iarg) := by
  -- the operand of a number is attached, or the next argument
  have hnumber : ∀ (w : Nat) (p : NumberOption) (set : BitVec w × Nat → Options × Nat),
      (∀ operand n, set (BitVec.ofInt w (atoi operand), n)
        = (CommandOption.apply o (.number p operand), n)) →
      (getParam w argv iarg).map set
        = (if opt.length = 2 then
            if next.char 0 = '-' then none else some (CommandOption.number p next, true)
          else some (CommandOption.number p (opt.drop 2), false)).map fun (c, detached) =>
            (c.apply o, if detached then iarg + 1 else iarg) := by
    intro w p set hset
    rw [getParam_eq w h]
    split_ifs <;> simp [hset]
  simp only [optionStep, headOption, argAt_of_drop h]
  by_cases hdash : opt.char 0 ≠ '-'
  · rw [if_pos hdash, if_pos hdash]
    rfl
  rw [if_neg hdash, if_neg hdash]
  generalize opt.char 1 = letter
  unfold optionOf
  split
  · rfl
  · rfl
  · exact hnumber 16 .blockSize _ fun _ _ => rfl
  · rfl
  · exact hnumber 8 .sampleResolution _ fun _ _ => rfl
  · exact hnumber 8 .referenceSampleInterval _ fun _ _ => rfl
  · rfl
  · rfl
  · rfl

/-- One turn of the loop, then the rest of it. -/
theorem optionLoop_unfold (o : Options) :
    optionLoop argv o iarg
      = if iarg + 2 < argv.length then
          (optionStep argv o iarg).bind fun (o', next) => optionLoop argv o' (next + 1)
        else some (o, iarg) := by
  rw [optionLoop]
  split_ifs
  · split
    · next hstep => rw [hstep, Option.bind_none]
    · next hstep => rw [hstep, Option.bind_some]
  · rfl

/-- The last two arguments are no options. -/
theorem readOptions_of_lt (h : args.length < 3) : readOptions args = some ([], args) := by
  match args with
  | [] => rfl
  | [_] => rfl
  | [_, _] => rfl
  | _ :: _ :: _ :: _ =>
    simp at h
    omega

/-- **The loop** reads all of them. -/
theorem optionLoop_eq (o : Options) (hle : iarg ≤ argv.length) :
    optionLoop argv o iarg
      = (readOptions (argv.drop iarg)).map fun (os, files) =>
          (os.foldl CommandOption.apply o, argv.length - files.length) := by
  -- on the number of arguments that are left
  induction hn : argv.length - iarg using Nat.strong_induction_on generalizing o iarg with
  | h n ih =>
    rw [optionLoop_unfold]
    have hlen : (argv.drop iarg).length = argv.length - iarg := List.length_drop
    by_cases hlt : iarg + 2 < argv.length
    · obtain ⟨opt, next, last, args, hdrop⟩ :
          ∃ opt next last args, argv.drop iarg = opt :: next :: last :: args := by
        match hargs : argv.drop iarg with
        | opt :: next :: last :: args => exact ⟨opt, next, last, args, rfl⟩
        | [] | [_] | [_, _] =>
          rw [hargs] at hlen
          simp at hlen
          omega
      have hdrop1 := drop_succ_of_drop hdrop
      have hdrop2 := drop_succ_of_drop hdrop1
      rw [if_pos hlt, optionStep_eq o hdrop, hdrop, readOptions]
      cases hhead : headOption opt next with
      | none => rfl
      | some head =>
        obtain ⟨c, detached⟩ := head
        cases detached with
        | false =>
          simp only [Option.map_some, Option.bind_some, Bool.false_eq_true, if_false]
          rw [ih _ (by omega) (c.apply o) (by omega) rfl, hdrop1, Option.map_map]
          rfl
        | true =>
          simp only [Option.map_some, Option.bind_some, if_true]
          rw [ih _ (by omega) (c.apply o) (by omega) rfl, hdrop2, Option.map_map]
          rfl
    · have hback : argv.length - (argv.drop iarg).length = iarg := by omega
      rw [if_neg hlt, readOptions_of_lt (by omega), Option.map_some]
      simp only [hback, List.foldl_nil]

/-- What is behind the options is the end of the arguments. -/
theorem readOptions_suffix {os : List CommandOption} {files : List CString}
    (h : readOptions args = some (os, files)) : files <:+ args := by
  fun_induction readOptions args generalizing os files with
  | case1 => cases h
  | case2 opt next last args o hhead ih =>
    obtain ⟨⟨os', files'⟩, hrest, heq⟩ := Option.map_eq_some_iff.mp h
    cases heq
    exact (ih hrest).trans (List.suffix_cons opt _)
  | case3 opt next last args o hhead ih =>
    obtain ⟨⟨os', files'⟩, hrest, heq⟩ := Option.map_eq_some_iff.mp h
    cases heq
    exact (ih hrest).trans ((List.suffix_cons next _).trans (List.suffix_cons opt _))
  | case4 files' =>
    cases h
    exact List.suffix_rfl

/-- **`main` does what the grammar says.** -/
theorem main_eq (argv : List CString) :
    main argv = (readOptions (argv.drop 1)).bind fun (os, files) => commandOf os files := by
  by_cases hempty : argv = []
  · subst hempty
    rw [main, optionLoop_unfold]
    rfl
  have hpos : 1 ≤ argv.length := List.length_pos_iff.mpr hempty
  rw [main, optionLoop_eq .initial hpos]
  cases hread : readOptions (argv.drop 1) with
  | none => rfl
  | some read =>
    obtain ⟨os, files⟩ := read
    have hsuffix : files <:+ argv := (readOptions_suffix hread).trans (List.drop_suffix 1 argv)
    have hlen := hsuffix.length_le
    have hdrop : argv.drop (argv.length - files.length) = files :=
      (List.suffix_iff_eq_drop.mp hsuffix).symm
    simp only [Option.map_some, Option.bind_some]
    match files with
    | [] => exact if_pos (by simp)
    | [_] =>
      simp only [List.length_cons, List.length_nil] at hlen ⊢
      exact if_pos (by omega)
    | infn :: outfn :: rest =>
      simp only [List.length_cons] at hlen hdrop ⊢
      rw [if_neg (by omega), argAt_of_drop hdrop, argAt_of_drop (drop_succ_of_drop hdrop)]
      rfl

end Loop

/-! ## Numbers as they are typed -/

/-- The number that decimal digits spell. -/
def decimal (digits : CString) : Nat := Nat.ofDigits 10 (digits.reverse.map digit)

/-- `s` spells the integer `z`: white space, a sign or none, and at least one digit. -/
inductive Denotes : CString → Int → Prop
  | unsigned (spaces : CString) {digits : CString} (hspaces : ∀ c ∈ spaces, isSpace c = true)
      (hne : digits ≠ []) (hdigits : ∀ c ∈ digits, isDigit c = true) :
      Denotes (spaces ++ digits) (decimal digits)
  | plus (spaces : CString) {digits : CString} (hspaces : ∀ c ∈ spaces, isSpace c = true)
      (hne : digits ≠ []) (hdigits : ∀ c ∈ digits, isDigit c = true) :
      Denotes (spaces ++ '+' :: digits) (decimal digits)
  | minus (spaces : CString) {digits : CString} (hspaces : ∀ c ∈ spaces, isSpace c = true)
      (hne : digits ≠ []) (hdigits : ∀ c ∈ digits, isDigit c = true) :
      Denotes (spaces ++ '-' :: digits) (-(decimal digits : Int))

/-- A string of digits is scanned to its end. -/
theorem scanDigits_of_digits {digits : CString} (h : ∀ c ∈ digits, isDigit c = true) (acc : Nat) :
    scanDigits acc digits = acc * 10 ^ digits.length + decimal digits := by
  -- on the digits, from the first to the last, whatever was read before them
  induction digits generalizing acc with
  | nil => simp [scanDigits, decimal]
  | cons c digits ih =>
    rw [List.forall_mem_cons] at h
    have hdecimal : decimal (c :: digits) = decimal digits + 10 ^ digits.length * digit c := by
      rw [decimal, List.reverse_cons, List.map_append, Nat.ofDigits_append]
      simp [decimal]
    rw [scanDigits, if_pos h.1, ih h.2, hdecimal, List.length_cons, pow_succ]
    ring

/-- White space in front of anything else is skipped. -/
theorem dropWhile_isSpace {spaces : CString} (h : ∀ c ∈ spaces, isSpace c = true) {c : Char}
    (hc : isSpace c = false) (s : CString) :
    (spaces ++ c :: s).dropWhile isSpace = c :: s := by
  rw [List.dropWhile_append_of_pos h, List.dropWhile_cons, hc]
  rfl

/-- A digit is no white space and no sign. -/
theorem isDigit_apart {c : Char} (hc : isDigit c = true) :
    isSpace c = false ∧ c ≠ '-' ∧ c ≠ '+' := by
  simp only [isDigit, Bool.and_eq_true, decide_eq_true_eq] at hc
  refine ⟨?_, ?_, ?_⟩
  · have hblank : c ≠ ' ' := by
      rintro rfl
      exact absurd hc.1 (by decide)
    simp only [isSpace, hblank, decide_false, Bool.false_or, Bool.and_eq_false_iff,
      decide_eq_false_iff_not]
    omega
  · rintro rfl
    exact absurd hc.1 (by decide)
  · rintro rfl
    exact absurd hc.1 (by decide)

/-- **`strtol` reads a number as it is typed**, when `long` can hold it. -/
theorem strtol_of_denotes {s : CString} {z : Int} (h : Denotes s z) (hlo : -(2 ^ 63) ≤ z)
    (hhi : z < 2 ^ 63) : strtol s = z := by
  cases h with
  | unsigned spaces hspaces hne hdigits =>
    obtain ⟨c, ds, rfl⟩ := List.exists_cons_of_ne_nil hne
    obtain ⟨hspace, hminus, hplus⟩ := isDigit_apart (hdigits c List.mem_cons_self)
    rw [strtol, dropWhile_isSpace hspaces hspace]
    split
    · next heq =>
      cases heq
      exact absurd rfl hminus
    · next heq =>
      cases heq
      exact absurd rfl hplus
    · rw [scanDigits_of_digits hdigits]
      omega
  | plus spaces hspaces hne hdigits =>
    rw [strtol, dropWhile_isSpace hspaces (by decide)]
    change min (2 ^ 63 - 1) ((scanDigits 0 _ : Nat) : Int) = _
    rw [scanDigits_of_digits hdigits]
    omega
  | minus spaces hspaces hne hdigits =>
    rw [strtol, dropWhile_isSpace hspaces (by decide)]
    change max (-(2 ^ 63)) (-((scanDigits 0 _ : Nat) : Int)) = _
    rw [scanDigits_of_digits hdigits]
    omega

/-- **`atoi` reads a number as it is typed**, when `int` can hold it. -/
theorem atoi_of_denotes {s : CString} {z : Int} (h : Denotes s z) (hlo : -(2 ^ 31) ≤ z)
    (hhi : z < 2 ^ 31) : atoi s = z := by
  rw [atoi, strtol_of_denotes h (by omega) (by omega), Int.bmod_def]
  omega

/-! ## The numbers handed over -/

namespace NumberOption

/-- The width of the variable the option sets. -/
def width : NumberOption → Nat
  | .blockSize => 16
  | .sampleResolution => 8
  | .referenceSampleInterval => 8

/-- The variable the option sets. -/
def target (p : NumberOption) (o : Options) : Nat :=
  match p with
  | .blockSize => o.blockSize.toNat
  | .sampleResolution => o.sampleResolution.toNat
  | .referenceSampleInterval => o.referenceSampleInterval.toNat

/-- The argument of `create_compressor` that the variable becomes. -/
def handed (p : NumberOption) (cfg : Config) : Nat :=
  match p with
  | .blockSize => cfg.blockSize.toNat
  | .sampleResolution => cfg.sampleResolution.toNat
  | .referenceSampleInterval => cfg.referenceSampleInterval.toNat

/-- The operand, when this is the option that is given. -/
def operandOf (p : NumberOption) : CommandOption → Option CString
  | .number q operand => if q = p then some operand else none
  | _ => none

/-- The operand of the last such option on the command line. -/
def lastOperand (p : NumberOption) (argv : List CString) : Option CString :=
  (readOptions (argv.drop 1)).bind fun (os, _) => lastSome p.operandOf os

/-- The value is the number typed: the one that the last operand spells, or the default when there
is none. -/
def AsTyped (p : NumberOption) (argv : List CString) (value : Nat) : Prop :=
  match p.lastOperand argv with
  | none => value = p.target .initial
  | some operand => Denotes operand value

/-- What `atoi` and the narrowing make of an operand. -/
def narrowed (p : NumberOption) (operand : CString) : Nat :=
  (BitVec.ofInt p.width (atoi operand)).toNat

/-- A narrowed number fits in the width of its option. -/
theorem narrowed_lt (p : NumberOption) (operand : CString) : p.narrowed operand < 2 ^ p.width :=
  BitVec.isLt _

/-- **A number in range is used as it is typed.** -/
theorem narrowed_of_denotes {p : NumberOption} {operand : CString} {n : Nat}
    (h : Denotes operand n) (hn : n < 2 ^ p.width) : p.narrowed operand = n := by
  have hwidth : 2 ^ p.width ≤ 2 ^ 16 := by cases p <;> decide
  rw [narrowed, atoi_of_denotes h (by omega) (by omega), BitVec.ofInt_natCast, BitVec.toNat_ofNat,
    Nat.mod_eq_of_lt hn]

/-- One option sets its variable and no other. -/
theorem target_apply (p : NumberOption) (c : CommandOption) (o : Options) :
    p.target (c.apply o) = ((p.operandOf c).map p.narrowed).getD (p.target o) := by
  cases c with
  | number q operand => cases p <;> cases q <;> rfl
  | _ => cases p <;> rfl

/-- **What the options leave in a variable**: the last operand, narrowed. -/
theorem target_foldl (p : NumberOption) (os : List CommandOption) (o : Options) :
    p.target (os.foldl CommandOption.apply o)
      = ((lastSome p.operandOf os).map p.narrowed).getD (p.target o) := by
  rw [← lastSome_map]
  refine read_foldl ?_ o
  intro c _ o
  exact target_apply p c o

end NumberOption

/-- The options of a command line on which `main` compresses. -/
theorem options_of_compress {argv : List CString} {cfg : Config} {infn outfn : CString}
    (h : main argv = some (.compress cfg infn outfn)) :
    ∃ os files, readOptions (argv.drop 1) = some (os, files)
      ∧ ∀ p : NumberOption, p.handed cfg = p.target (os.foldl CommandOption.apply .initial) := by
  rw [main_eq] at h
  obtain ⟨⟨os, files⟩, hread, hcommand⟩ := Option.bind_eq_some_iff.mp h
  refine ⟨os, files, hread, ?_⟩
  match files with
  | [] => cases hcommand
  | [_] => cases hcommand
  | _ :: _ :: _ =>
    simp only [commandOf] at hcommand
    split_ifs at hcommand
    · cases hcommand
    · rw [Option.some.injEq, Command.compress.injEq] at hcommand
      obtain ⟨rfl, -, -⟩ := hcommand
      intro p
      cases p <;> rfl

/-- **What `main` hands over**: the last operand of an option, narrowed, or the default. -/
theorem handed_of_compress {argv : List CString} {cfg : Config} {infn outfn : CString}
    (h : main argv = some (.compress cfg infn outfn)) (p : NumberOption) :
    p.handed cfg = ((p.lastOperand argv).map p.narrowed).getD (p.target .initial) := by
  obtain ⟨os, files, hread, hhanded⟩ := options_of_compress h
  rw [hhanded p, NumberOption.target_foldl, NumberOption.lastOperand, hread]
  rfl

/-- **Numbers are used as typed exactly when they are numbers and fit.** For every argument vector
on which `main` goes on to compress: the block size, the sample resolution and the reference sample
interval it hands over are the numbers typed last, or the defaults, if and only if the last operand
of each option that is given spells a number from 0 on that is below `2^16` for the block size and
below `2^8` for the other two. -/
theorem main_numbers_iff {argv : List CString} {cfg : Config} {infn outfn : CString}
    (h : main argv = some (.compress cfg infn outfn)) :
    (∀ p : NumberOption, p.AsTyped argv (p.handed cfg))
      ↔ ∀ (p : NumberOption) (operand : CString), p.lastOperand argv = some operand →
          ∃ n : Nat, n < 2 ^ p.width ∧ Denotes operand n := by
  refine forall_congr' ?_
  intro p
  have hhanded := handed_of_compress h p
  rw [NumberOption.AsTyped]
  cases hlast : p.lastOperand argv with
  | none =>
    rw [hlast] at hhanded
    exact ⟨fun _ operand hoperand => (nomatch hoperand), fun _ => hhanded⟩
  | some operand =>
    rw [hlast, Option.map_some, Option.getD_some] at hhanded
    constructor
    · rintro hdenotes operand' ⟨⟩
      rw [hhanded] at hdenotes
      exact ⟨_, p.narrowed_lt operand, hdenotes⟩
    · intro hfits
      obtain ⟨n, hn, hdenotes⟩ := hfits operand rfl
      rw [hhanded, NumberOption.narrowed_of_denotes hdenotes hn]
      exact hdenotes

/-- A block size given as the next argument, a resolution behind its letter. -/
theorem main_numbers_typed :
    let argv := [['i', 'q'], ['-', 'j'], ['1', '2', '8'], ['-', 'n', '1', '6'], ['a'], ['b']]
    ∃ cfg, main argv = some (.compress cfg ['a'] ['b']) ∧ cfg.blockSize = 128
      ∧ cfg.sampleResolution = 16 ∧ ∀ p : NumberOption, p.AsTyped argv (p.handed cfg) := by
  intro argv
  have hmain : main argv
      = some (.compress (commandLineConfig 1 1 1 0 16 1 128) ['a'] ['b']) := by
    rw [main_eq]
    decide
  refine ⟨_, hmain, rfl, rfl, (main_numbers_iff hmain).mpr ?_⟩
  intro p operand hlast
  cases p with
  | blockSize =>
    obtain rfl : ['1', '2', '8'] = operand := Option.some.inj hlast
    exact ⟨128, by decide, .unsigned [] (List.forall_mem_nil _) (List.cons_ne_nil _ _)
      (List.all_eq_true.mp rfl)⟩
  | sampleResolution =>
    obtain rfl : ['1', '6'] = operand := Option.some.inj hlast
    exact ⟨16, by decide, .unsigned [] (List.forall_mem_nil _) (List.cons_ne_nil _ _)
      (List.all_eq_true.mp rfl)⟩
  | referenceSampleInterval => cases hlast

/-- **Numbers wrap around.** The block size `65600` becomes 64, and the tool goes on. -/
theorem main_numbers_wrapped :
    let argv := [['i', 'q'], ['-', 'j'], ['6', '5', '6', '0', '0'], ['a'], ['b']]
    ∃ cfg, main argv = some (.compress cfg ['a'] ['b'])
      ∧ NumberOption.blockSize.lastOperand argv = some ['6', '5', '6', '0', '0']
      ∧ Denotes ['6', '5', '6', '0', '0'] 65600 ∧ cfg.blockSize = 64
      ∧ ¬ ∀ p : NumberOption, p.AsTyped argv (p.handed cfg) := by
  intro argv
  have hmain : main argv = some (.compress (commandLineConfig 1 1 1 0 8 1 64) ['a'] ['b']) := by
    rw [main_eq]
    decide
  have hdenotes : Denotes ['6', '5', '6', '0', '0'] 65600 :=
    .unsigned [] (List.forall_mem_nil _) (List.cons_ne_nil _ _) (List.all_eq_true.mp rfl)
  refine ⟨_, hmain, rfl, hdenotes, rfl, ?_⟩
  intro htyped
  have h64 : Denotes ['6', '5', '6', '0', '0'] 64 := htyped .blockSize
  -- an operand spells one number
  have heq := (strtol_of_denotes h64 (by decide) (by decide)).symm.trans
    (strtol_of_denotes hdenotes (by decide) (by decide))
  exact absurd heq (by decide)

end IQzip
