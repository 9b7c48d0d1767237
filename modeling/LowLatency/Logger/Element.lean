import LowLatency.Basic
set_option autoImplicit false

/-!
# Log elements and the `pushValue` overloads (`logging.h`)

A `LogElement` is a tag `type_` and an anonymous union `u_`.  The union is modelled by the
member that was last written together with its value (`LogUnion`); integers keep their C++
widths as bit vectors (`int` 32 bits, `long` 64 bits on the LP64 targets the code is built
for), and `float`/`double` are carried as their IEEE-754 bit patterns, since the logger only
copies them.

The background thread prints an element with `switch (next->type_)`, reading the member the
tag names (`LogElement.print?`).  Reading a member other than the one stored is undefined in
C++; the model marks it `none`.  The scalar `pushValue` overloads always build an element
whose tag names the member they write (`pushValue_wellTagged`), so their elements print as
their own value.

`pushValue(const char*)` pushes one `CHAR` element per character up to the terminator, and
`pushValue(const std::string&)` goes through `c_str()`, so it stops at an embedded NUL.
-/

namespace LowLatency

/-- The terminating character `'\0'`. -/
def NUL : Char := Char.ofNat 0

/-- `Common::LogType`. -/
inductive LogType where
  | CHAR
  | INTEGER
  | LONG_INTEGER
  | LONG_LONG_INTEGER
  | UNSIGNED_INTEGER
  | UNSIGNED_LONG_INTEGER
  | UNSIGNED_LONG_LONG_INTEGER
  | FLOAT
  | DOUBLE
  deriving DecidableEq, Repr

/-- The union `u_` of `LogElement`: the member last written, with its value. -/
inductive LogUnion where
  | c (v : Char)
  | i (v : BitVec 32)
  | l (v : BitVec 64)
  | ll (v : BitVec 64)
  | u (v : BitVec 32)
  | ul (v : BitVec 64)
  | ull (v : BitVec 64)
  | f (v : BitVec 32)
  | d (v : BitVec 64)
  deriving DecidableEq, Repr

/-- The tag that names a union member. -/
def LogUnion.member : LogUnion → LogType
  | .c _ => .CHAR
  | .i _ => .INTEGER
  | .l _ => .LONG_INTEGER
  | .ll _ => .LONG_LONG_INTEGER
  | .u _ => .UNSIGNED_INTEGER
  | .ul _ => .UNSIGNED_LONG_INTEGER
  | .ull _ => .UNSIGNED_LONG_LONG_INTEGER
  | .f _ => .FLOAT
  | .d _ => .DOUBLE

/-- `Common::LogElement`: the tag `type_` and the union `u_`. -/
structure LogElement where
  type : LogType
  u : LogUnion
  deriving DecidableEq, Repr

/-- `LogElement()`, as the queue's slots are initialised: tag `CHAR`, union zeroed. -/
instance : Inhabited LogElement := ⟨⟨.CHAR, .c NUL⟩⟩

namespace LogElement

/-- The `switch (next->type_)` of `flushQueue()`: the member named by the tag, as it is passed
to `file_ <<`; `none` when the union does not hold that member. -/
def print? (e : LogElement) : Option LogUnion :=
  match e.type, e.u with
  | .CHAR, .c v => some (.c v)
  | .INTEGER, .i v => some (.i v)
  | .LONG_INTEGER, .l v => some (.l v)
  | .LONG_LONG_INTEGER, .ll v => some (.ll v)
  | .UNSIGNED_INTEGER, .u v => some (.u v)
  | .UNSIGNED_LONG_INTEGER, .ul v => some (.ul v)
  | .UNSIGNED_LONG_LONG_INTEGER, .ull v => some (.ull v)
  | .FLOAT, .f v => some (.f v)
  | .DOUBLE, .d v => some (.d v)
  | _, _ => none

/-- Each case of the switch reads the member its tag names: an element prints as its stored
value exactly when the tag names the stored member. -/
theorem print?_eq (e : LogElement) :
    e.print? = if e.u.member = e.type then some e.u else none := by
  obtain ⟨t, v⟩ := e
  cases t <;> cases v <;> rfl

/-- An element is well tagged when its tag names the member it holds. -/
def WellTagged (e : LogElement) : Prop := e.u.member = e.type

instance (e : LogElement) : Decidable e.WellTagged := inferInstanceAs (Decidable (_ = _))

theorem print?_of_wellTagged {e : LogElement} (h : e.WellTagged) : e.print? = some e.u := by
  rw [print?_eq, if_pos (show e.u.member = e.type from h)]

end LogElement

/-- The element `pushValue(char)` builds. -/
def charElement (v : Char) : LogElement := ⟨.CHAR, .c v⟩

/-- `pushValue(const char *value)`: one `CHAR` element per character up to the terminator.
The list is the memory from `value` on. -/
def pushCString : List Char → List LogElement
  | [] => []
  | c :: rest => if c = NUL then [] else charElement c :: pushCString rest

/-- An argument of `log`, by the `pushValue` overload it resolves to. -/
inductive LogArg where
  | element (e : LogElement)
  | char (v : Char)
  | int (v : BitVec 32)
  | long (v : BitVec 64)
  | longLong (v : BitVec 64)
  | unsigned (v : BitVec 32)
  | unsignedLong (v : BitVec 64)
  | unsignedLongLong (v : BitVec 64)
  | float (v : BitVec 32)
  | double (v : BitVec 64)
  | cstr (mem : List Char)
  | string (s : String)
  deriving DecidableEq, Repr

/-- The scalar overloads: `pushValue(LogElement{tag, {.member = value}})`. -/
def scalarElement (tag : LogType) (member : LogUnion) : List LogElement :=
  [⟨tag, member⟩]

/-- `pushValue(value)`: the elements the overload for the argument pushes, in order. -/
def LogArg.pushValue : LogArg → List LogElement
  | .element e => [e]
  | .char v => scalarElement .CHAR (.c v)
  | .int v => scalarElement .INTEGER (.i v)
  | .long v => scalarElement .LONG_INTEGER (.l v)
  | .longLong v => scalarElement .LONG_LONG_INTEGER (.ll v)
  | .unsigned v => scalarElement .UNSIGNED_INTEGER (.u v)
  | .unsignedLong v => scalarElement .UNSIGNED_LONG_INTEGER (.ul v)
  | .unsignedLongLong v => scalarElement .UNSIGNED_LONG_LONG_INTEGER (.ull v)
  | .float v => scalarElement .FLOAT (.f v)
  | .double v => scalarElement .DOUBLE (.d v)
  | .cstr mem => pushCString mem
  | .string s => pushCString (s.toList ++ [NUL])

theorem pushCString_wellTagged :
    ∀ (mem : List Char) (e : LogElement), e ∈ pushCString mem → e.WellTagged
  | [], _, h => nomatch h
  | c :: rest, e, h => by
    simp only [pushCString] at h
    split at h
    · nomatch h
    · rcases List.mem_cons.mp h with rfl | h
      · rfl
      · exact pushCString_wellTagged rest e h

/-- Every overload but `pushValue(const LogElement&)`, which copies its argument, builds
well-tagged elements. -/
theorem pushValue_wellTagged (a : LogArg) (ha : ∀ e, a ≠ .element e) :
    ∀ e ∈ a.pushValue, e.WellTagged := by
  cases a with
  | element e => exact absurd rfl (ha e)
  | cstr mem => exact pushCString_wellTagged mem
  | string s => exact pushCString_wellTagged _
  | _ v => simp [LogArg.pushValue, scalarElement, LogElement.WellTagged, LogUnion.member]

/-- `pushValue(const char *)` pushes the characters before the first NUL of the memory it
reads. -/
theorem pushCString_eq (mem : List Char) :
    pushCString mem = (mem.takeWhile (· ≠ NUL)).map charElement := by
  induction mem with
  | nil => rfl
  | cons c rest ih => by_cases hc : c = NUL <;> simp [pushCString, List.takeWhile_cons, hc, ih]

theorem takeWhile_append_stop {p : Char → Bool} {x : Char} (hx : p x = false) :
    ∀ l : List Char, (l ++ [x]).takeWhile p = l.takeWhile p
  | [] => by simp [hx]
  | c :: l => by simp only [List.cons_append, List.takeWhile_cons, takeWhile_append_stop hx l]

/-- For every string, `pushValue(const std::string&)`, which goes through `c_str()`, pushes
one `CHAR` element per character up to the string's first embedded NUL and drops the rest:
a string holding a NUL is logged cut short. -/
@[simp] theorem pushValue_string (s : String) :
    (LogArg.string s).pushValue = (s.toList.takeWhile (· ≠ NUL)).map charElement := by
  rw [LogArg.pushValue, pushCString_eq, takeWhile_append_stop (by simp)]

/-! ## Timestamps (`time_utils.h`) -/

/-- `getCurrentTimeStr(time_str)`, given the text `ctime(&time)` returned for the current
time: that text with its last character, `ctime`'s newline, overwritten by `'\0'`. -/
def getCurrentTimeStr (ctimeText : String) : String :=
  if ctimeText.toList.isEmpty then ctimeText else ⟨ctimeText.toList.dropLast ++ [NUL]⟩

/-- Every `log` call of the library passes `getCurrentTimeStr(&time_str_)`, which
`pushValue(const std::string&)` pushes through `c_str()`: for every text `ctime` can return (a
NUL-free line ending in its newline) the timestamp is logged as that line without its
newline, the `'\0'` written over the newline ending `c_str()` there. -/
theorem pushValue_getCurrentTimeStr (t : String) (ht : NUL ∉ t.toList) :
    (LogArg.string (getCurrentTimeStr (t ++ "\n"))).pushValue = t.toList.map charElement := by
  have hlist : (t ++ "\n").toList = t.toList ++ ['\n'] := by simp
  have hkeep : t.toList.takeWhile (· ≠ NUL) = t.toList :=
    List.takeWhile_eq_self_iff.mpr fun c hc => decide_eq_true fun h : c = NUL => ht (h ▸ hc)
  rw [getCurrentTimeStr, hlist, if_neg (by simp), LogArg.pushValue, pushCString_eq,
    List.dropLast_concat, takeWhile_append_stop (by simp)]
  change List.map charElement ((t.toList ++ [NUL]).takeWhile (· ≠ NUL)) = _
  rw [takeWhile_append_stop (by simp), hkeep]

example :
    (LogArg.string (getCurrentTimeStr ("Thu Sep 20 14:55:02 2023" ++ "\n"))).pushValue =
      "Thu Sep 20 14:55:02 2023".toList.map charElement :=
  pushValue_getCurrentTimeStr _ (by decide)

end LowLatency
