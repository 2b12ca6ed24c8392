import Console.Proofs.Number.Numerals
import Console.Proofs.Settings.Laws
import Console.Value

/-! Documents with a line for each entry: strings, whole numbers and truth values, and behind them
tables of strings.  A library for them is lawful, as `library_lawful` says. -/

namespace Console.Toml.Lines

variable {s rest : Text}

def keep (c : Char) : Text × Text → Text × Text
  | (read, rest) => (c :: read, rest)

def isPlain (c : Char) : Bool := 0x20 ≤ c.toNat && c != '"' && c != '\\' && c != '\x7F'

def writeChar (c : Char) : Text :=
  if isPlain c then [c]
  else ['\\', 'u', '0', '0', Nat.digitChar (c.toNat / 16), Nat.digitChar (c.toNat % 16)]

def quote (s : Text) : Text := '"' :: (s.flatMap writeChar ++ ['"'])

def readString : Text → Option (Text × Text)
  | [] => none
  | '"' :: s => some ([], s)
  | '\\' :: 'u' :: '0' :: '0' :: a :: b :: s =>
    if Decimal.isHexDigit a && Decimal.isHexDigit b then
      (readString s).map (keep (Char.ofNat (16 * Decimal.digitValue a + Decimal.digitValue b)))
    else none
  | c :: s => if isPlain c then (readString s).map (keep c) else none

theorem digitChar_hex : ∀ n < 16, Decimal.isHexDigit (Nat.digitChar n) ∧
    Decimal.digitValue (Nat.digitChar n) = n ∧ Nat.digitChar n ≠ '\n' := by decide

theorem toNat_lt_of_not_isPlain {c : Char} (h : isPlain c = false) : c.toNat < 128 := by
  by_contra large
  have other (d : Char) (small : d.toNat < 128) : c ≠ d := by
    rintro rfl
    exact large small
  simp only [isPlain, bne_iff_ne.mpr (other '"' (by decide)),
    bne_iff_ne.mpr (other '\\' (by decide)), bne_iff_ne.mpr (other '\x7F' (by decide)),
    Bool.and_true, decide_eq_false_iff_not] at h
  omega

theorem readString_writeChar (c : Char) (s : Text) :
    readString (writeChar c ++ s) = (readString s).map (keep c) := by
  rw [writeChar]
  cases plain : isPlain c with
  | true =>
    have quote : c ≠ '"' := by rintro rfl; exact absurd plain (by decide)
    have slash : c ≠ '\\' := by rintro rfl; exact absurd plain (by decide)
    rw [if_pos rfl, List.singleton_append, readString, plain, if_pos rfl]
    · exact quote
    · exact fun _ _ _ same => absurd same slash
  | false =>
    have small := toNat_lt_of_not_isPlain plain
    obtain ⟨high, highValue, _⟩ := digitChar_hex (c.toNat / 16) (by omega)
    obtain ⟨low, lowValue, _⟩ := digitChar_hex (c.toNat % 16) (by omega)
    rw [if_neg Bool.false_ne_true, List.cons_append, List.cons_append, List.cons_append,
      List.cons_append, List.cons_append, List.cons_append, List.nil_append, readString, high, low,
      highValue, lowValue, Nat.div_add_mod, Char.ofNat_toNat]
    rfl

theorem readString_quote (s rest : Text) :
    readString (s.flatMap writeChar ++ '"' :: rest) = some (s, rest) := by
  induction s with
  | nil => rfl
  | cons c s ih => rw [List.flatMap_cons, List.append_assoc, readString_writeChar, ih]; rfl

theorem newline_notMem_quote (s : Text) : '\n' ∉ quote s := by
  have char (c : Char) : '\n' ∉ writeChar c := by
    rw [writeChar]
    cases plain : isPlain c with
    | true =>
      rw [if_pos rfl, List.mem_singleton]
      rintro rfl
      exact absurd plain (by decide)
    | false =>
      have small := toNat_lt_of_not_isPlain plain
      have high := (digitChar_hex (c.toNat / 16) (by omega)).2.2
      have low := (digitChar_hex (c.toNat % 16) (by omega)).2.2
      simp [high.symm, low.symm]
  simp only [quote, List.mem_cons, List.mem_append, List.mem_flatMap, List.not_mem_nil, or_false,
    not_or, not_exists, not_and]
  exact ⟨by decide, fun c _ => char c, by decide⟩

def isBare (c : Char) : Bool := c.isAlphanum || c == '-' || c == '_'

def writeName (name : Text) : Text :=
  if !name.isEmpty && name.all isBare then name else quote name

def readName : Text → Option (Text × Text)
  | '"' :: s => readString s
  | s =>
    match s.takeWhile isBare with
    | [] => none
    | name => some (name, s.dropWhile isBare)

theorem writeName_cases (name : Text) :
    writeName name = quote name ∨ writeName name = name ∧ name ≠ [] ∧ ∀ c ∈ name, isBare c := by
  rw [writeName]
  cases bare : !name.isEmpty && name.all isBare with
  | false => exact .inl (if_neg Bool.false_ne_true)
  | true =>
    obtain ⟨written, all⟩ := Bool.and_eq_true_iff.mp bare
    exact .inr ⟨if_pos rfl, by simpa using written, List.all_eq_true.mp all⟩

theorem readName_writeName (name : Text) {c : Char} (h : isBare c = false) :
    readName (writeName name ++ c :: rest) = some (name, c :: rest) := by
  obtain quoted | ⟨bare, written, all⟩ := writeName_cases name
  · rw [quoted, quote, List.cons_append, List.append_assoc]
    exact readString_quote name (c :: rest)
  · obtain ⟨d, more, rfl⟩ := List.exists_cons_of_ne_nil written
    have quote : d ≠ '"' := by rintro rfl; exact absurd (all _ List.mem_cons_self) (by decide)
    have stop : ¬ isBare c = true := by rw [h]; exact Bool.false_ne_true
    rw [bare, List.cons_append, readName]
    · rw [← List.cons_append, List.takeWhile_append_of_pos all, List.dropWhile_append_of_pos all,
        List.takeWhile_cons_of_neg stop, List.dropWhile_cons_of_neg stop, List.append_nil]
    · exact fun _ same => quote (List.cons.inj same).1

theorem newline_notMem_writeName (name : Text) : '\n' ∉ writeName name := by
  obtain quoted | ⟨bare, _, all⟩ := writeName_cases name
  · rw [quoted]
    exact newline_notMem_quote name
  · rw [bare]
    exact fun mem => absurd (all _ mem) (by decide)

inductive Scalar
  | string (value : Text)
  | integer (value : Int64)
  | boolean (value : Bool)
  deriving DecidableEq

namespace Scalar

def value : Scalar → Value
  | .string value => .string value
  | .integer value => .integer value
  | .boolean value => .boolean value

def string? : Scalar → Option Text
  | .string value => some value
  | _ => none

def write : Scalar → Text
  | .string value => quote value
  | .integer value => Decimal.writeInteger value.toInt
  | .boolean value => Console.Value.writeBool value

def read? : Text → Option Scalar
  | '"' :: s =>
    match readString s with
    | some (value, []) => some (.string value)
    | _ => none
  | s =>
    if s = Console.Value.writeBool true then some (.boolean true)
    else if s = Console.Value.writeBool false then some (.boolean false)
    else (Decimal.readInteger? s).bind fun n =>
      if (Int64.ofInt n).toInt = n then some (.integer (.ofInt n)) else none

theorem writeInteger_chars (n : Int) :
    Decimal.writeInteger n ≠ [] ∧ ∀ c ∈ Decimal.writeInteger n, c = '-' ∨ c.isDigit := by
  have digit (c : Char) (mem : c ∈ Decimal.writeNat n.natAbs) : c.isDigit :=
    Nat.isDigit_of_mem_toDigits (by decide) (by decide) mem
  rw [Decimal.writeInteger]
  split
  · exact ⟨List.cons_ne_nil _ _, fun c mem => (List.mem_cons.mp mem).imp_right (digit c)⟩
  · exact ⟨Nat.toDigits_ne_nil, fun c mem => .inr (digit c mem)⟩

theorem writeInteger_ne {n : Int} {c : Char} (h : c ≠ '-' ∧ c.isDigit = false) (s : Text) :
    Decimal.writeInteger n ≠ c :: s := by
  intro same
  obtain ⟨_, chars⟩ := writeInteger_chars n
  rw [same] at chars
  obtain minus | digit := chars c List.mem_cons_self
  · exact h.1 minus
  · rw [h.2] at digit
    cases digit

theorem exists_writeBool (truth : Bool) :
    ∃ c s, Console.Value.writeBool truth = c :: s ∧ (c ≠ '-' ∧ c.isDigit = false) ∧ '\n' ∉ c :: s := by
  cases truth with
  | true => exact ⟨'t', ['r', 'u', 'e'], by unfold Console.Value.writeBool; decide +kernel⟩
  | false => exact ⟨'f', ['a', 'l', 's', 'e'], by unfold Console.Value.writeBool; decide +kernel⟩

theorem read?_write (scalar : Scalar) : read? scalar.write = some scalar := by
  cases scalar with
  | string value => rw [write, quote, read?, readString_quote]
  | boolean value => cases value <;> decide +kernel
  | integer value =>
    have other (truth : Bool) : Decimal.writeInteger value.toInt ≠ Console.Value.writeBool truth := by
      obtain ⟨c, s, written, first, _⟩ := exists_writeBool truth
      rw [written]
      exact writeInteger_ne first s
    rw [write, read?, if_neg (other true), if_neg (other false), Decimal.readInteger?_writeInteger,
      Option.bind_some, Int64.ofInt_toInt, if_pos rfl]
    exact fun s => writeInteger_ne (by decide) s

theorem newline_notMem_write (scalar : Scalar) : '\n' ∉ scalar.write := by
  cases scalar with
  | string value => exact newline_notMem_quote value
  | integer value => exact fun mem => absurd ((writeInteger_chars _).2 _ mem) (by decide)
  | boolean value =>
    obtain ⟨c, s, written, _, plain⟩ := exists_writeBool value
    rw [write, written]
    exact plain

end Scalar

inductive Line
  | blank
  | header (name : Text)
  | entry (name : Text) (value : Scalar)

namespace Line

def write : Line → Text
  | .blank => []
  | .header name => '[' :: (writeName name ++ [']'])
  | .entry name value => writeName name ++ ' ' :: '=' :: ' ' :: value.write

def read? : Text → Option Line
  | [] => some .blank
  | '[' :: s =>
    match readName s with
    | some (name, [']']) => some (.header name)
    | _ => none
  | s =>
    match readName s with
    | some (name, ' ' :: '=' :: ' ' :: s) => (Scalar.read? s).map (.entry name)
    | _ => none

theorem exists_writeName (name : Text) : ∃ c s, writeName name = c :: s ∧ c ≠ '[' := by
  obtain quoted | ⟨bare, written, all⟩ := writeName_cases name
  · exact ⟨'"', _, quoted, by decide⟩
  · obtain ⟨c, s, rfl⟩ := List.exists_cons_of_ne_nil written
    exact ⟨c, s, bare, by rintro rfl; exact absurd (all _ List.mem_cons_self) (by decide)⟩

theorem read?_write (line : Line) : read? line.write = some line := by
  cases line with
  | blank => rfl
  | header name => simp only [write, read?, readName_writeName name (show isBare ']' = false by decide)]
  | entry name value =>
    obtain ⟨c, s, written, other⟩ := exists_writeName name
    have read : readName (writeName name ++ ' ' :: '=' :: ' ' :: value.write) =
        some (name, ' ' :: '=' :: ' ' :: value.write) := readName_writeName name (by decide)
    rw [written] at read
    rw [write, written, List.cons_append, read?, ← List.cons_append, read]
    · simp only [Scalar.read?_write, Option.map_some]
    · nofun
    · exact fun _ same => other (List.cons.inj same).1

theorem newline_notMem_write (line : Line) : '\n' ∉ line.write := by
  cases line with
  | blank => exact List.not_mem_nil
  | header name => simp [write, newline_notMem_writeName]
  | entry name value => simp [write, newline_notMem_writeName, Scalar.newline_notMem_write]

end Line

structure Document where
  values : List (Text × Scalar)
  tables : List (Text × List (Text × Text))
  deriving DecidableEq

namespace Document

def valueEntry : Text × Scalar → Text × Value
  | (name, scalar) => (name, scalar.value)

def tableEntry : Text × List (Text × Text) → Text × Value
  | (name, entries) => (name, .ofStrings entries)

def root (document : Document) : Table :=
  document.values.map valueEntry ++ document.tables.map tableEntry

def entryLine : Text × Scalar → Line
  | (name, scalar) => .entry name scalar

def stringEntry : Text × Text → Text × Scalar
  | (name, value) => (name, .string value)

def tableLines : Text × List (Text × Text) → List Line
  | (name, entries) => .blank :: .header name :: (entries.map stringEntry).map entryLine

def lines (document : Document) : List Line :=
  document.values.map entryLine ++ document.tables.flatMap tableLines

def stringEntry? : Text × Scalar → Option (Text × Text)
  | (name, scalar) => scalar.string?.map (name, ·)

def ofLines? : List Line → Option Document
  | [] => some ⟨[], []⟩
  | .blank :: lines => ofLines? lines
  | .entry name scalar :: lines =>
    (ofLines? lines).map fun document => ⟨(name, scalar) :: document.values, document.tables⟩
  | .header name :: lines => do
    let document ← ofLines? lines
    let entries ← document.values.mapM stringEntry?
    some ⟨[], (name, entries) :: document.tables⟩

def print (document : Document) : Text :=
  ['\n'].intercalate (document.lines.map Line.write ++ [[]])

def parse (s : Text) : Option Document := ((s.splitOn '\n').mapM Line.read?).bind ofLines?

theorem ofLines?_entries (values : List (Text × Scalar)) (lines : List Line) :
    ofLines? (values.map entryLine ++ lines) =
      (ofLines? lines).map fun document => ⟨values ++ document.values, document.tables⟩ := by
  induction values with
  | nil => cases h : ofLines? lines <;> simp [h]
  | cons entry values ih =>
    rw [List.map_cons, List.cons_append, entryLine, ofLines?, ih, Option.map_map]
    rfl

theorem mapM_stringEntry? (entries : List (Text × Text)) :
    (entries.map stringEntry).mapM stringEntry? = some entries := by
  induction entries with
  | nil => rfl
  | cons entry entries ih => rw [List.map_cons, List.mapM_cons, ih]; rfl

theorem ofLines?_tables (tables : List (Text × List (Text × Text))) :
    ofLines? (tables.flatMap tableLines ++ [.blank]) = some ⟨[], tables⟩ := by
  induction tables with
  | nil => rfl
  | cons table tables ih =>
    obtain ⟨name, entries⟩ := table
    rw [List.flatMap_cons, List.append_assoc, tableLines, List.cons_append, List.cons_append,
      ofLines?, ofLines?, ofLines?_entries, ih]
    simp only [Option.map_some, List.append_nil, Option.bind_eq_bind, Option.bind_some,
      mapM_stringEntry?]

theorem parse_print (document : Document) : parse document.print = some document := by
  have lines : (document.lines.map Line.write ++ [[]]).mapM Line.read? =
      some (document.lines ++ [.blank]) := by
    induction document.lines with
    | nil => rfl
    | cons line lines ih =>
      rw [List.map_cons, List.cons_append, List.mapM_cons, Line.read?_write, ih]
      rfl
  rw [parse, print, List.splitOn_intercalate, lines, Option.bind_some, Document.lines,
    List.append_assoc, ofLines?_entries, ofLines?_tables, Option.map_some, List.append_nil]
  · simp only [List.mem_append, List.mem_map, List.mem_singleton]
    rintro _ (⟨line, _, rfl⟩ | rfl)
    · exact line.newline_notMem_write
    · exact List.not_mem_nil
  · simp

def addValue (document : Document) (name : Text) (scalar : Scalar) : Document :=
  { document with values := document.values ++ [(name, scalar)] }

def add (document : Document) (name : Text) : Item → Document
  | .string value => document.addValue name (.string value)
  | .integer value => document.addValue name (.integer value)
  | .boolean value => document.addValue name (.boolean value)
  | .strings entries _ => { document with tables := document.tables ++ [(name, entries)] }

def orInsert (document : Document) (name : Text) (item : Item) : Document :=
  if (document.root.lookup name).isSome then document else document.add name item

theorem lookup_between {front back : Table} {name : Text} (value : Value)
    (vacant : (front ++ back).lookup name = none) (other : Text) :
    (front ++ [(name, value)] ++ back).lookup other =
      if other = name then some value else (front ++ back).lookup other := by
  rw [List.lookup_append, Option.or_eq_none_iff] at vacant
  rw [List.lookup_append, List.lookup_append, List.lookup_append]
  by_cases same : other = name
  · rw [if_pos same, same, vacant.1, List.lookup_cons_self]
    rfl
  · rw [if_neg same, List.lookup_cons, beq_eq_false_iff_ne.mpr same, List.lookup_nil,
      Option.or_none]

theorem lookup_addValue {document : Document} {name : Text}
    (vacant : document.root.lookup name = none) (scalar : Scalar) (other : Text) :
    (document.addValue name scalar).root.lookup other =
      if other = name then some scalar.value else document.root.lookup other := by
  rw [root] at vacant ⊢
  rw [addValue, List.map_append]
  exact lookup_between _ vacant other

theorem lookup_add {document : Document} {name : Text}
    (vacant : document.root.lookup name = none) (item : Item) (other : Text) :
    (document.add name item).root.lookup other =
      if other = name then some item.value else document.root.lookup other := by
  cases item with
  | string value => exact lookup_addValue vacant (.string value) other
  | integer value => exact lookup_addValue vacant (.integer value) other
  | boolean value => exact lookup_addValue vacant (.boolean value) other
  | strings entries distinct =>
    rw [← List.append_nil document.root] at vacant ⊢
    rw [← lookup_between _ vacant]
    simp [add, root, tableEntry, Item.value]

end Document

abbrev library : Library where
  Document := Document
  parse := Document.parse
  root := Document.root
  orInsert := Document.orInsert
  print := Document.print
  decode s := ((Document.parse s).map Document.root).bind Settings.ofTable?

def toml (s : Text) : Option Table := (Document.parse s).map Document.root

theorem library_lawful : library.Lawful toml where
  parses _ := rfl
  empty := rfl
  occupied document name item given := if_pos (Option.isSome_iff_ne_none.mpr given)
  vacant (document : Document) name item vacant other := by
    have added : document.orInsert name item = document.add name item :=
      if_neg (by rw [Bool.not_eq_true, Option.isSome_eq_false_iff, Option.isNone_iff_eq_none]
                 exact vacant)
    change (document.orInsert name item).root.lookup other = _
    rw [added]
    exact Document.lookup_add vacant item other
  prints (document : Document) :=
    ⟨document.root, congrArg (Option.map Document.root) (Document.parse_print document),
      fun _ => rfl⟩
  keeps (document again : Document) parsed := by
    obtain rfl := Option.some.inj (parsed.symm.trans (Document.parse_print document))
    rfl
  decodes _ := rfl

theorem patch?_print (document : library.Document) :
    Settings.patch? library (library.print document) =
      some (library.print (Settings.fillWith library document Settings.defaults)) := by
  have parsed : library.parse (library.print document) = some document :=
    Document.parse_print document
  rw [Settings.patch?, parsed, Option.map_some]

theorem toml_print (document : Document) : toml (library.print document) = some document.root :=
  congrArg (Option.map Document.root) (Document.parse_print document)

theorem decode_print (document : Document) :
    library.decode (library.print document) = Settings.ofTable? document.root := by
  rw [library_lawful.decodes, toml_print, Option.bind_some]

def amongOthers : Document where
  values := [(Settings.maxSuggestionsKey, .integer 5), (Text.of "other", .boolean true)]
  tables := [(Settings.commandAliasesKey,
    [(['z', 'z'], ['o', 'l', 'd']), (['a', 'a'], ['n', 'e', 'w', ' ', '{', '}'])])]

def amongOthersOnce : Document where
  values := amongOthers.values ++
    [(Settings.fallbackPrefixKey, .string []), (Settings.showUsageOnErrorKey, .boolean true)]
  tables := amongOthers.tables

theorem patch?_amongOthers :
    Settings.patch? library (library.print amongOthers) = some (library.print amongOthersOnce) := by
  have filled : Settings.fillWith library amongOthers Settings.defaults = amongOthersOnce := by
    decide +kernel
  rw [patch?_print, filled]

def settingsAmongOthers : Settings where
  fallbackPrefix := []
  showUsageOnError := true
  maxSuggestions := 5
  commandAliases := [(['z', 'z'], ['o', 'l', 'd']), (['a', 'a'], ['n', 'e', 'w', ' ', '{', '}'])]

theorem ofPatched_amongOthersOnce :
    Settings.ofPatched library (library.print amongOthersOnce) = .ok settingsAmongOthers := by
  rw [Settings.ofPatched, decode_print]
  decide +kernel

example : amongOthersOnce.print = Text.of "max_suggestions = 5
other = true
fallback_prefix = \"\"
show_usage_on_error = true

[command_aliases]
zz = \"old\"
aa = \"new \x7b\x7d\"
" := by decide +kernel

end Console.Toml.Lines
