import LuaGlue.CommandLine.Options
import Mathlib.Data.List.Basic
import Mathlib.Tactic.SplitIfs

/-!
# Flags and the command

The flags in front of a command do not touch the command: they set the configuration, of which the
last one counts, and strictness. From the command on every word is an argument, whatever it looks
like, and the number of arguments decides whether the command can be carried out.
-/

namespace LuaGlue

/-! ## Commands -/

namespace Bundle

theorem ofLabel?_eq_some_iff {label : String} {kind : Bundle} :
    ofLabel? label = some kind ↔ kind.label = label := by
  constructor
  · intro h
    have hfound := List.find?_some h
    exact beq_iff_eq.1 hfound
  · rintro rfl
    cases kind <;> rfl

end Bundle

namespace Command

def name : Command → String
  | bindings .. => "bindings"
  | bundle kind .. => kind.label
  | all => "all"
  | parse _ => "parse"
  | help => "help"

def arguments : Command → List Path
  | bindings header marker sources => header :: marker :: sources
  | bundle _ output sources => output :: sources
  | all => []
  | parse sources => sources
  | help => []

/-- The words that are commands, each with the numbers of arguments that it can have. -/
inductive Accepts : String → Nat → Prop where
  | bindings {count : Nat} (files : 3 ≤ count) : Accepts "bindings" count
  | bundle (kind : Bundle) {count : Nat} (output : 1 ≤ count) : Accepts kind.label count
  | all : Accepts "all" 0
  | parse {count : Nat} (source : 1 ≤ count) : Accepts "parse" count
  | help (count : Nat) : Accepts "help" count

theorem ofWords_eq_ok {word : String} {paths : List Path} {command : Command}
    (h : ofWords word paths = .ok command) :
    Accepts word paths.length ∧ command.name = word ∧
      (command.arguments = paths ∨ command = .help) := by
  unfold ofWords at h
  split at h
  · next kind hkind =>
    obtain rfl := Bundle.ofLabel?_eq_some_iff.1 hkind
    cases paths with
    | nil => cases h
    | cons output sources =>
      cases h
      exact ⟨.bundle kind (Nat.le_add_left 1 _), rfl, Or.inl rfl⟩
  · split at h
    all_goals cases h
    · exact ⟨.bindings (Nat.le_add_left 3 _), rfl, Or.inl rfl⟩
    · exact ⟨.all, rfl, Or.inl rfl⟩
    · next hsome => exact ⟨.parse (List.length_pos_iff.2 hsome), rfl, Or.inl rfl⟩
    · exact ⟨.help _, rfl, Or.inr rfl⟩

theorem exists_ofWords {word : String} {paths : List Path} (h : Accepts word paths.length) :
    ∃ command, ofWords word paths = .ok command := by
  generalize hcount : paths.length = count at h
  cases h with
  | bindings hthree =>
    rw [← hcount] at hthree
    match paths, hthree with
    | header :: marker :: source :: sources, _ => exact ⟨_, rfl⟩
  | bundle kind houtput =>
    rw [← hcount] at houtput
    obtain ⟨output, sources, rfl⟩ := List.exists_cons_of_length_pos houtput
    unfold ofWords
    rw [Bundle.ofLabel?_eq_some_iff.2 rfl]
    exact ⟨_, rfl⟩
  | all =>
    rw [List.length_eq_zero_iff.1 hcount]
    exact ⟨_, rfl⟩
  | parse hsource =>
    rw [← hcount] at hsource
    obtain ⟨source, sources, rfl⟩ := List.exists_cons_of_length_pos hsource
    exact ⟨_, rfl⟩
  | help => exact ⟨_, rfl⟩

end Command

/-! ## Flags -/

/-- A flag, as it is asked for in front of a command. A configuration can be asked for by either of
two words. -/
inductive Flag where
  | strict
  | config (short : Bool) (value : String)
  deriving DecidableEq, Repr

namespace Flag

def words : Flag → List String
  | strict => ["--strict"]
  | config short value => [if short then "-c" else "--config", value]

def config? : Flag → Option Path
  | strict => none
  | config _ value => some ⟨value⟩

def allWords (flags : List Flag) : List String := flags.flatMap words

def lastConfig? (flags : List Flag) : Option Path := (flags.filterMap config?).getLast?

theorem lastConfig?_cons (flag : Flag) (flags : List Flag) :
    lastConfig? (flag :: flags) = (lastConfig? flags).or flag.config? := by
  cases flag with
  | strict => exact (Option.or_none ..).symm
  | config short value =>
    have hvalue : (config short value).config? = some ⟨value⟩ := rfl
    unfold lastConfig?
    rw [List.filterMap_cons_some hvalue, List.getLast?_cons, hvalue]
    cases (flags.filterMap config?).getLast? <;> rfl

end Flag

def IsDashed (word : String) : Prop := word.toList.head? = some '-'

instance : DecidablePred IsDashed := fun word => inferInstanceAs (Decidable (word.toList.head? = _))

namespace Options

variable (config? : Option Path) (strict : Bool)

theorem readAfter_cons (word : String) (words : List String) :
    readAfter config? strict (word :: words) =
      if word = "--config" ∨ word = "-c" then
        match words with
        | [] => .error .configWithoutValue
        | value :: rest => readAfter (some ⟨value⟩) strict rest
      else if word = "--strict" then readAfter config? true words
      else if word = "--help" ∨ word = "-h" then .ok ⟨config?, strict, .help⟩
      else if IsDashed word then .error (.unknownFlag word)
      else
        match Command.ofWords word (words.map Path.mk) with
        | .ok command => .ok ⟨config?, strict, command⟩
        | .error e => .error e := by
  rw [readAfter.eq_def]
  rfl

theorem readAfter_words (flag : Flag) (words : List String) :
    readAfter config? strict (flag.words ++ words) =
      readAfter (flag.config?.or config?) (strict || decide (flag = .strict)) words := by
  cases flag with
  | strict =>
    change readAfter config? strict ("--strict" :: words) = _
    rw [readAfter_cons, if_neg (by decide), if_pos rfl]
    simp [Flag.config?]
  | config short value =>
    cases short with
    | false =>
      change readAfter config? strict ("--config" :: value :: words) = _
      rw [readAfter_cons, if_pos (Or.inl rfl)]
      simp [Flag.config?]
    | true =>
      change readAfter config? strict ("-c" :: value :: words) = _
      rw [readAfter_cons, if_pos (Or.inr rfl)]
      simp [Flag.config?]

/-- Flags are read one after the other; of the configurations the last one is kept. -/
theorem readAfter_allWords (flags : List Flag) (words : List String) :
    readAfter config? strict (Flag.allWords flags ++ words) =
      readAfter ((Flag.lastConfig? flags).or config?) (strict || decide (.strict ∈ flags))
        words := by
  induction flags generalizing config? strict with
  | nil => simp [Flag.allWords, Flag.lastConfig?]
  | cons flag flags ih =>
    have hstrict : (strict || decide (flag = .strict) || decide (.strict ∈ flags)) =
        (strict || decide (.strict ∈ flag :: flags)) := by
      simp [Bool.or_assoc, eq_comm]
    rw [Flag.allWords, List.flatMap_cons, List.append_assoc, readAfter_words]
    change readAfter _ _ (Flag.allWords flags ++ words) = _
    rw [ih, Flag.lastConfig?_cons, Option.or_assoc, hstrict]

theorem readAfter_command {word : String} (h : ¬IsDashed word) (words : List String) :
    readAfter config? strict (word :: words) =
      (Command.ofWords word (words.map Path.mk)).map fun command =>
        ⟨config?, strict, command⟩ := by
  have hother : ∀ dashed, IsDashed dashed → word ≠ dashed := by
    rintro _ hdashed rfl
    exact h hdashed
  rw [readAfter_cons, if_neg, if_neg (hother "--strict" rfl), if_neg, if_neg h]
  · cases Command.ofWords word (words.map Path.mk) <;> rfl
  · exact not_or.2 ⟨hother "--help" rfl, hother "-h" rfl⟩
  · exact not_or.2 ⟨hother "--config" rfl, hother "-c" rfl⟩

theorem readAfter_help {word : String} (h : word ∈ ["--help", "-h"]) (words : List String) :
    readAfter config? strict (word :: words) = .ok ⟨config?, strict, .help⟩ := by
  rw [List.mem_pair] at h
  rw [readAfter_cons, if_neg, if_neg, if_pos h]
  all_goals rcases h with rfl | rfl <;> decide

theorem readAfter_unknown {word : String} (hdashed : IsDashed word)
    (h : word ∉ ["--config", "-c", "--strict", "--help", "-h"]) (words : List String) :
    readAfter config? strict (word :: words) = .error (.unknownFlag word) := by
  simp only [List.mem_cons, List.not_mem_nil, or_false, not_or] at h
  obtain ⟨hconfig, hshort, hstrict, hhelp⟩ := h
  rw [readAfter_cons, if_neg (not_or.2 ⟨hconfig, hshort⟩), if_neg hstrict, if_neg (not_or.2 hhelp),
    if_pos hdashed]

theorem readAfter_valueless {word : String} (h : word ∈ ["--config", "-c"]) :
    readAfter config? strict [word] = .error .configWithoutValue := by
  rw [List.mem_pair] at h
  rw [readAfter_cons, if_pos h]

def withFlags (flags : List Flag) (options : Options) : Options :=
  { options with config? := Flag.lastConfig? flags, strict := decide (.strict ∈ flags) }

structure ReadsFlags (flags : List Flag) : Prop where
  /-- Flags change neither the command nor the reason of a failure. -/
  command : ∀ words, (∀ word ∈ words.head?, ¬IsDashed word) →
    read (Flag.allWords flags ++ words) = (read words).map (withFlags flags)
  /-- Only the last configuration and whether strictness is asked for count. -/
  order : ∀ others, Flag.lastConfig? others = Flag.lastConfig? flags →
    (.strict ∈ others ↔ .strict ∈ flags) →
    ∀ words, read (Flag.allWords others ++ words) = read (Flag.allWords flags ++ words)
  /-- Behind a command all words are its arguments as they stand. -/
  arguments : ∀ word words options, ¬IsDashed word →
    read (Flag.allWords flags ++ word :: words) = .ok options →
    options.command.name = word ∧
      (options.command.arguments.map Path.text = words ∨ options.command = .help)
  accepts : ∀ word words, ¬IsDashed word →
    ((∃ options, read (Flag.allWords flags ++ word :: words) = .ok options) ↔
      Command.Accepts word words.length)
  help : ∀ word ∈ ["--help", "-h"], ∀ words, read (Flag.allWords flags ++ word :: words) =
    .ok ⟨Flag.lastConfig? flags, decide (.strict ∈ flags), .help⟩
  unknown : ∀ word, IsDashed word → word ∉ ["--config", "-c", "--strict", "--help", "-h"] →
    ∀ words, read (Flag.allWords flags ++ word :: words) = .error (.unknownFlag word)
  valueless : ∀ word ∈ ["--config", "-c"],
    read (Flag.allWords flags ++ [word]) = .error .configWithoutValue

theorem read_allWords_append (flags : List Flag) (words : List String) :
    read (Flag.allWords flags ++ words) =
      readAfter (Flag.lastConfig? flags) (decide (.strict ∈ flags)) words := by
  rw [read, readAfter_allWords, Option.or_none, Bool.false_or]

/-- The flags decide nothing about a command but what is kept beside it. -/
theorem read_command_eq_ok_iff (flags : List Flag) {word : String} (h : ¬IsDashed word)
    {words : List String} {options : Options} :
    read (Flag.allWords flags ++ word :: words) = .ok options ↔
      ∃ command, Command.ofWords word (words.map Path.mk) = .ok command ∧
        options = ⟨Flag.lastConfig? flags, decide (.strict ∈ flags), command⟩ := by
  rw [read_allWords_append, readAfter_command _ _ h]
  cases Command.ofWords word (words.map Path.mk) with
  | error e => simp [Except.map]
  | ok command => simp [Except.map, eq_comm]

/-- Flags in any order and number change nothing but the configuration and strictness, and no word
behind the command is taken for a flag. -/
theorem readsFlags (flags : List Flag) : ReadsFlags flags where
  command words hstart := by
    rw [read_allWords_append]
    cases words with
    | nil => rfl
    | cons word words =>
      have hword := hstart word rfl
      rw [read, readAfter_command _ _ hword, readAfter_command _ _ hword]
      cases Command.ofWords word (words.map Path.mk) <;> rfl
  order others hconfig hstrict words := by
    rw [read_allWords_append, read_allWords_append, hconfig, decide_eq_decide.2 hstrict]
  arguments word words options hword hread := by
    obtain ⟨command, hcommand, rfl⟩ := (read_command_eq_ok_iff flags hword).1 hread
    obtain ⟨-, hname, harguments⟩ := Command.ofWords_eq_ok hcommand
    refine ⟨hname, harguments.imp_left fun hpaths => ?_⟩
    rw [hpaths, List.map_map]
    exact List.map_id words
  accepts word words hword := by
    have hcount : (words.map Path.mk).length = words.length := List.length_map ..
    rw [← hcount]
    constructor
    · rintro ⟨options, hread⟩
      obtain ⟨command, hcommand, -⟩ := (read_command_eq_ok_iff flags hword).1 hread
      exact (Command.ofWords_eq_ok hcommand).1
    · intro haccepts
      obtain ⟨command, hcommand⟩ := Command.exists_ofWords haccepts
      exact ⟨_, (read_command_eq_ok_iff flags hword).2 ⟨command, hcommand, rfl⟩⟩
  help word hword words := by
    rw [read_allWords_append, readAfter_help _ _ hword]
  unknown word hdashed hword words := by
    rw [read_allWords_append, readAfter_unknown _ _ hdashed hword]
  valueless word hword := by
    rw [read_allWords_append, readAfter_valueless _ _ hword]

/-- Neither the value of a flag nor an argument is read as a flag. -/
example : read ["-c", "--strict", "parse", "--help"] =
    .ok ⟨some ⟨"--strict"⟩, false, .parse [⟨"--help"⟩]⟩ := by decide

end Options

end LuaGlue
