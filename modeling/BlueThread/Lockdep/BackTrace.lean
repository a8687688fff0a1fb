/-
The lines of a backtrace: `synchronization/backtrace.cc`.

`demangle` looks for the symbol between the last opening parenthesis and the last
plus sign of a line, and asks the demangler of the C++ runtime for its name. The
demangler is a parameter: it gives the name if it sets the status to zero, and
nothing for any other status.
-/

import BlueThread.Foundation.Marks
import BlueThread.Lockdep.Registry

namespace BlueThread.Lockdep

open Marks

/-- What a `const char*` points to: the bytes before the terminating NUL. -/
structure CString where
  bytes : Name
  terminated : 0 ∉ bytes
deriving DecidableEq

theorem nul_not_mem_cStr (name : Name) : 0 ∉ cStr name := by
  intro member
  have passed := List.mem_takeWhile_imp member
  rw [decide_eq_true_eq] at passed
  exact passed rfl

def CString.ofName (name : Name) : CString := ⟨cStr name, nul_not_mem_cStr name⟩

theorem CString.ofName_bytes (text : CString) : CString.ofName text.bytes = text := by
  obtain ⟨bytes, terminated⟩ := text
  rw [ofName, CString.mk.injEq]
  exact cStr_of_noNul terminated

/-! ### The source -/

/-- A text of ASCII characters. -/
def ascii (text : String) : Name := text.toList.map Char.toUInt8

def openByte : UInt8 := '('.toUInt8

def plusByte : UInt8 := '+'.toUInt8

def closeByte : UInt8 := ')'.toUInt8

/-- The loop of `demangle`. Pointers are offsets into the line, and null is `none`. -/
def symbolSpan (place : Nat) (start stop : Option Nat) : Name → Option Nat × Option Nat
  | [] => (start, stop)
  | byte :: rest =>
      if byte = openByte then symbolSpan (place + 1) (some (place + 1)) stop rest
      else if byte = plusByte then symbolSpan (place + 1) start (some place) rest
      else symbolSpan (place + 1) start stop rest

def cFunction (mangled : Name) : Name := mangled ++ ascii "()"

namespace BackTrace

/-- The result for a symbol; `rest` is the line from the plus sign on. -/
def readable (cxaDemangle : CString → Option CString) (mangled rest : Name) : Name :=
  if mangled.take 2 = ascii "_Z" then
    match cxaDemangle (.ofName mangled) with
    | some demangled => [openByte] ++ demangled.bytes ++ rest
    | none => cFunction mangled
  else cFunction mangled

def demangle (cxaDemangle : CString → Option CString) (name : CString) : Name :=
  match symbolSpan 0 none none name.bytes with
  | (some start, some stop) =>
      if start < stop then
        readable cxaDemangle ((name.bytes.take stop).drop start) (name.bytes.drop stop)
      else name.bytes
  | _ => name.bytes

/-- One round of the loop of `print`. -/
def printLine (cxaDemangle : CString → Option CString) (number : Nat) (line : Name) : Name :=
  (Nat.toDigits 10 number).map Char.toUInt8 ++ ascii ": " ++
    demangle cxaDemangle (.ofName line) ++ ascii "\n"

/-- `print`: the loop from `skip` to the number of lines. -/
def print (cxaDemangle : CString → Option CString) (trace : BackTrace) : Name :=
  (List.range' trace.skip (trace.strings.length - trace.skip)).flatMap fun i =>
    printLine cxaDemangle (i - trace.skip + 1) (trace.strings.getD i [])

end BackTrace

/-! ### Where the loop ends -/

/-- The loop remembers the place behind the last opening parenthesis and the place of
the last plus sign. -/
theorem symbolSpan_eq (text : Name) (place : Nat) (seen stop : Option Nat) :
    symbolSpan place (seen.map (· + 1)) stop text =
      ((lastPlace openByte place seen text).map (· + 1), lastPlace plusByte place stop text) := by
  induction text generalizing place seen stop with
  | nil => rfl
  | cons byte rest ih =>
      rw [symbolSpan, lastPlace, lastPlace]
      by_cases opens : byte = openByte
      · have apart : byte ≠ plusByte := by
          rw [opens]
          decide
        rw [if_pos opens, if_pos opens, if_neg apart]
        exact ih (place + 1) (some place) stop
      · rw [if_neg opens, if_neg opens]
        by_cases adds : byte = plusByte
        · rw [if_pos adds, if_pos adds]
          exact ih (place + 1) seen (some place)
        · rw [if_neg adds, if_neg adds]
          exact ih (place + 1) seen stop

theorem symbolSpan_start (text : Name) :
    symbolSpan 0 none none text =
      ((lastPlace openByte 0 none text).map (· + 1), lastPlace plusByte 0 none text) :=
  symbolSpan_eq text 0 none none

structure SymbolLine (line path mangled tail : Name) : Prop where
  split : line = path ++ openByte :: (mangled ++ plusByte :: tail)
  nonempty : mangled ≠ []
  lastOpen : openByte ∉ mangled ++ plusByte :: tail
  lastPlus : plusByte ∉ tail

/-- A line without one of the marks, or with nothing between the last ones. -/
def Misplaced (line : Name) : Prop :=
  plusByte ∉ line ∨ openByte ∉ line ∨
    ∃ opened added, IsLast openByte line opened ∧ IsLast plusByte line added ∧
      ¬opened + 2 ≤ added

theorem misplaced_or_symbol (line : Name) :
    Misplaced line ∨ ∃ path mangled tail, SymbolLine line path mangled tail := by
  by_cases adds : plusByte ∈ line
  · by_cases opens : openByte ∈ line
    · obtain ⟨added, lastPlus⟩ := exists_isLast adds
      obtain ⟨opened, lastOpen⟩ := exists_isLast opens
      by_cases apart : opened + 2 ≤ added
      · right
        obtain ⟨path, behind, split, size, noOpen⟩ := lastOpen.split
        have regrouped : line = (path ++ [openByte]) ++ behind := by
          rw [split, List.append_assoc, List.singleton_append]
        have length : (path ++ [openByte]).length = opened + 1 := by
          rw [List.length_append, List.length_singleton, size]
        rw [regrouped] at lastPlus
        obtain ⟨mangled, tail, rest, width, noPlus⟩ := (IsLast.drop lastPlus (by omega)).split
        refine ⟨path, mangled, tail, ?_, ?_, ?_, noPlus⟩
        · rw [split, rest]
        · intro empty
          rw [empty, List.length_nil] at width
          omega
        · rw [← rest]
          exact noOpen
      · exact Or.inl (Or.inr (Or.inr ⟨opened, added, lastOpen, lastPlus, apart⟩))
    · exact Or.inl (Or.inr (Or.inl opens))
  · exact Or.inl (Or.inl adds)

section Lines

variable (cxaDemangle : CString → Option CString) {line : CString}

theorem demangle_unspanned
    (unspanned : ∀ start stop, symbolSpan 0 none none line.bytes = (some start, some stop) →
      ¬start < stop) : BackTrace.demangle cxaDemangle line = line.bytes := by
  unfold BackTrace.demangle
  generalize symbolSpan 0 none none line.bytes = span at unspanned
  obtain ⟨start, stop⟩ := span
  cases start with
  | none => rfl
  | some start =>
      cases stop with
      | none => rfl
      | some stop => exact if_neg (unspanned start stop rfl)

theorem demangle_misplaced (misplaced : Misplaced line.bytes) :
    BackTrace.demangle cxaDemangle line = line.bytes := by
  apply demangle_unspanned
  intro start stop spanned
  rw [symbolSpan_start, Prod.mk.injEq] at spanned
  obtain ⟨begins, ends⟩ := spanned
  rcases misplaced with absent | absent | ⟨opened, added, lastOpen, lastPlus, near⟩
  · rw [lastPlace_absent absent] at ends
    cases ends
  · rw [lastPlace_absent absent] at begins
    cases begins
  · rw [lastOpen.lastPlace_eq, Option.map_some, Option.some.injEq] at begins
    rw [lastPlus.lastPlace_eq, Option.some.injEq] at ends
    omega

/-- The symbol of a line is what stands between its last opening parenthesis and its
last plus sign, whatever stands before. -/
theorem demangle_symbol {path mangled tail : Name}
    (symbol : SymbolLine line.bytes path mangled tail) :
    BackTrace.demangle cxaDemangle line =
      BackTrace.readable cxaDemangle mangled (plusByte :: tail) := by
  obtain ⟨split, nonempty, lastOpen, lastPlus⟩ := symbol
  have begins : lastPlace openByte 0 none line.bytes = some path.length := by
    rw [split]
    exact lastPlace_split lastOpen path none
  have regrouped : line.bytes = (path ++ openByte :: mangled) ++ plusByte :: tail := by
    rw [split, List.append_assoc, List.cons_append]
  have ends : lastPlace plusByte 0 none line.bytes = some (path ++ openByte :: mangled).length := by
    rw [regrouped]
    exact lastPlace_split lastPlus (path ++ openByte :: mangled) none
  have inside : path.length + 1 < (path ++ openByte :: mangled).length := by
    have positive := List.length_pos_of_ne_nil nonempty
    simp only [List.length_append, List.length_cons]
    omega
  have cut : (line.bytes.take (path ++ openByte :: mangled).length).drop (path.length + 1) =
      mangled := by
    rw [regrouped, List.take_left, ← List.drop_drop, List.drop_left]
    rfl
  have rest : line.bytes.drop (path ++ openByte :: mangled).length = plusByte :: tail := by
    rw [regrouped, List.drop_left]
  rw [BackTrace.demangle, symbolSpan_start, begins, ends]
  dsimp only [Option.map_some]
  rw [if_pos inside, cut, rest]

theorem readable_demangled {mangled rest : Name} {demangled : CString}
    (marked : ascii "_Z" <+: mangled)
    (known : cxaDemangle (.ofName mangled) = some demangled) :
    BackTrace.readable cxaDemangle mangled rest =
      [openByte] ++ demangled.bytes ++ rest := by
  have front : mangled.take 2 = ascii "_Z" := (List.prefix_iff_eq_take.mp marked).symm
  rw [BackTrace.readable, if_pos front, known]

theorem readable_plain {mangled rest : Name}
    (plain : ¬ascii "_Z" <+: mangled ∨ cxaDemangle (.ofName mangled) = none) :
    BackTrace.readable cxaDemangle mangled rest = mangled ++ ascii "()" := by
  rw [BackTrace.readable]
  by_cases front : mangled.take 2 = ascii "_Z"
  · rw [if_pos front]
    have marked : ascii "_Z" <+: mangled := List.prefix_iff_eq_take.mpr front.symm
    rw [plain.resolve_left (not_not.mpr marked)]
    rfl
  · rw [if_neg front]
    rfl

theorem demangle_cases (line : CString) :
    (Misplaced line.bytes ∧ BackTrace.demangle cxaDemangle line = line.bytes) ∨
      ∃ path mangled tail, SymbolLine line.bytes path mangled tail ∧
        BackTrace.demangle cxaDemangle line =
          BackTrace.readable cxaDemangle mangled (plusByte :: tail) := by
  rcases misplaced_or_symbol line.bytes with misplaced | ⟨path, mangled, tail, symbol⟩
  · exact Or.inl ⟨misplaced, demangle_misplaced cxaDemangle misplaced⟩
  · exact Or.inr ⟨path, mangled, tail, symbol, demangle_symbol cxaDemangle symbol⟩

theorem print_frames (trace : BackTrace) :
    BackTrace.print cxaDemangle trace =
      ((trace.strings.drop trace.skip).zipIdx 1).flatMap fun frame =>
        BackTrace.printLine cxaDemangle frame.2 frame.1 := by
  rw [BackTrace.print, List.flatMap_def, List.flatMap_def]
  congr 1
  apply List.ext_getElem
  · simp
  · intro index inRange _
    have inside : trace.skip + index < trace.strings.length := by
      rw [List.length_map, List.length_range'] at inRange
      omega
    simp only [List.getElem_map, List.getElem_range', List.getElem_zipIdx, List.getElem_drop,
      Nat.one_mul, Nat.add_sub_cancel_left, Nat.add_comm 1 index]
    rw [List.getD_eq_getElem?_getD, List.getElem?_eq_getElem inside]
    rfl

/-- The symbol is found whatever the path looks like, and lines that do not have the
form are left alone. -/
theorem demangle_exact (line : CString) :
    (∀ (path off rest : Name) (sym : CString),
        line.bytes =
          path ++ [openByte] ++ sym.bytes ++ [plusByte] ++ off ++ [closeByte] ++ rest →
        sym.bytes ≠ [] → openByte ∉ sym.bytes → plusByte ∉ sym.bytes →
        openByte ∉ off → plusByte ∉ off → openByte ∉ rest → plusByte ∉ rest →
        (∀ demangled, ascii "_Z" <+: sym.bytes → cxaDemangle sym = some demangled →
          BackTrace.demangle cxaDemangle line =
            [openByte] ++ demangled.bytes ++ [plusByte] ++ off ++ [closeByte] ++ rest) ∧
          ((¬ascii "_Z" <+: sym.bytes ∨ cxaDemangle sym = none) →
            BackTrace.demangle cxaDemangle line = sym.bytes ++ ascii "()")) ∧
      (Misplaced line.bytes → BackTrace.demangle cxaDemangle line = line.bytes) := by
  refine ⟨?_, demangle_misplaced cxaDemangle⟩
  intro path off rest sym form nonempty symOpen _symPlus offOpen offPlus restOpen restPlus
  have split : line.bytes =
      path ++ openByte :: (sym.bytes ++ plusByte :: (off ++ closeByte :: rest)) := by
    rw [form]
    simp
  have lastOpen : openByte ∉ sym.bytes ++ plusByte :: (off ++ closeByte :: rest) := by
    have notPlus : openByte ≠ plusByte := by decide
    have notClose : openByte ≠ closeByte := by decide
    simp [symOpen, offOpen, restOpen, notPlus, notClose]
  have lastPlus : plusByte ∉ off ++ closeByte :: rest := by
    have notClose : plusByte ≠ closeByte := by decide
    simp [offPlus, restPlus, notClose]
  have found := demangle_symbol cxaDemangle ⟨split, nonempty, lastOpen, lastPlus⟩
  have asked : cxaDemangle (.ofName sym.bytes) = cxaDemangle sym := by
    rw [CString.ofName_bytes]
  constructor
  · intro demangled marked known
    rw [found, readable_demangled cxaDemangle marked (asked.trans known)]
    simp
  · intro plain
    rw [found]
    exact readable_plain cxaDemangle (plain.imp_right asked.trans)

end Lines

/-- A directory with parentheses and plus signs in its name; a C++ function, a C function,
and a line without a symbol. -/
theorem demangle_exact_in_odd_directory :
    let cxaDemangle : CString → Option CString := fun mangled =>
      if mangled.bytes = ascii "_ZN3foo3barEv" then
        some ⟨ascii "foo::bar()", by decide +kernel⟩
      else none
    BackTrace.demangle cxaDemangle
        ⟨ascii "/c++(x)/a(_ZN3foo3barEv+0x1a) [0x40]", by decide +kernel⟩ =
        ascii "(foo::bar()+0x1a) [0x40]" ∧
      BackTrace.demangle cxaDemangle ⟨ascii "/c++(x)/a(main+0x1a) [0x40]", by decide +kernel⟩ =
        ascii "main()" ∧
      BackTrace.demangle cxaDemangle ⟨ascii "/c++(x)/a(+0x1a) [0x40]", by decide +kernel⟩ =
        ascii "/c++(x)/a(+0x1a) [0x40]" := by
  intro cxaDemangle
  refine ⟨?_, ?_, ?_⟩
  · have form := (demangle_exact cxaDemangle
      ⟨ascii "/c++(x)/a(_ZN3foo3barEv+0x1a) [0x40]", by decide +kernel⟩).1 (ascii "/c++(x)/a")
      (ascii "0x1a") (ascii " [0x40]") ⟨ascii "_ZN3foo3barEv", by decide +kernel⟩
    refine (form ?_ ?_ ?_ ?_ ?_ ?_ ?_ ?_).1 ⟨ascii "foo::bar()", by decide +kernel⟩ ?_ rfl
    all_goals decide +kernel
  · have form := (demangle_exact cxaDemangle
      ⟨ascii "/c++(x)/a(main+0x1a) [0x40]", by decide +kernel⟩).1 (ascii "/c++(x)/a")
      (ascii "0x1a") (ascii " [0x40]") ⟨ascii "main", by decide +kernel⟩
    refine (form ?_ ?_ ?_ ?_ ?_ ?_ ?_ ?_).2 (Or.inl ?_)
    all_goals decide +kernel
  · apply (demangle_exact cxaDemangle _).2
    right
    right
    refine ⟨9, 10, ?_, ?_, by decide⟩
    · exact isLast_append_cons (ascii "/c++(x)/a") (ascii "+0x1a) [0x40]") (by decide +kernel)
    · exact isLast_append_cons (ascii "/c++(x)/a(") (ascii "0x1a) [0x40]") (by decide +kernel)

end BlueThread.Lockdep
