import LowLatency.Logger.Element
set_option autoImplicit false

/-!
# `Logger::log`: format strings

`log(s, args...)` scans the NUL-terminated format string `s` left to right and pushes one
`CHAR` element per literal character.  At a `%` it looks at the next character: a second `%`
makes the pair one literal `%`; anything else (the terminator included) makes the `%` a
placeholder, replaced by the elements of the next argument, after which the scan goes on
with the remaining arguments.  Two overloads do this: the variadic template, which exits
with "extra arguments provided to log()" when the string ends first, and `log(const char*)`,
used once the arguments are used up, which exits with "missing arguments to log()" at a
placeholder.  A format string is modelled as the memory from `s` on, so the model can read
past the terminator if the code does.

`pieces` and `logSpec` read the format string the way the specification describes it;
`log_eq_logSpec` shows that the two overloads together compute exactly that, whatever the
memory after the terminator holds.
-/

namespace LowLatency

/-! ## The two overloads -/

/-- `log(const char *s)`: the rest of the format string, with no argument left. -/
def logNoArgs : List Char → Except String (List LogElement)
  | [] => .ok []
  | '%' :: '%' :: rest => (charElement '%' :: ·) <$> logNoArgs rest
  | '%' :: _ => FATAL "missing arguments to log()"
  | c :: rest => if c = NUL then .ok [] else (charElement c :: ·) <$> logNoArgs rest

/-- `log(const char *s, const T &value, A... args)`: scan until the placeholder for `value`,
push `value`, and hand the rest of the string to the overload for `args`. -/
def logWithArgs : List Char → LogArg → List LogArg → Except String (List LogElement)
  | [], _, _ => FATAL "extra arguments provided to log()"
  | '%' :: '%' :: rest, value, args => (charElement '%' :: ·) <$> logWithArgs rest value args
  | '%' :: rest, value, args =>
    (value.pushValue ++ ·) <$>
      match args with
      | [] => logNoArgs rest
      | a :: as => logWithArgs rest a as
  | c :: rest, value, args =>
    if c = NUL then FATAL "extra arguments provided to log()"
    else (charElement c :: ·) <$> logWithArgs rest value args

/-- `log(s, args...)`: the overload C++ resolves for the number of arguments. -/
def log (s : List Char) : List LogArg → Except String (List LogElement)
  | [] => logNoArgs s
  | a :: as => logWithArgs s a as

/-! ## The format string as the specification reads it -/

/-- A piece of a format string: a literal character or a placeholder. -/
inductive FormatPiece where
  | literal (c : Char)
  | placeholder
  deriving DecidableEq, Repr

/-- The pieces of a format string's characters (before its terminator), left to right:
`%%` is one literal `%`, and every other `%`, a final one included, is a placeholder. -/
def pieces : List Char → List FormatPiece
  | [] => []
  | '%' :: '%' :: rest => .literal '%' :: pieces rest
  | '%' :: rest => .placeholder :: pieces rest
  | c :: rest => .literal c :: pieces rest

/-- The number of placeholders. -/
def placeholderCount (ps : List FormatPiece) : Nat :=
  ps.count .placeholder

/-- The elements of the pieces with the `i`-th placeholder replaced by the elements of the
`i`-th argument. -/
def render : List FormatPiece → List LogArg → List LogElement
  | [], _ => []
  | .literal c :: ps, args => charElement c :: render ps args
  | .placeholder :: ps, a :: args => a.pushValue ++ render ps args
  | .placeholder :: ps, [] => render ps []

/-- What `log` does by the specification: return the rendered elements when the number of
placeholders is the number of arguments, and exit otherwise. -/
def logSpec (s : List Char) (args : List LogArg) : Except String (List LogElement) :=
  if placeholderCount (pieces s) = args.length then .ok (render (pieces s) args)
  else if placeholderCount (pieces s) < args.length then
    FATAL "extra arguments provided to log()"
  else FATAL "missing arguments to log()"

@[simp] theorem placeholderCount_literal (c : Char) (ps : List FormatPiece) :
    placeholderCount (.literal c :: ps) = placeholderCount ps := by
  simp [placeholderCount]

@[simp] theorem placeholderCount_placeholder (ps : List FormatPiece) :
    placeholderCount (.placeholder :: ps) = placeholderCount ps + 1 := by
  simp [placeholderCount]

/-- A literal piece is pushed as it is, before the rest. -/
theorem logSpec_literal {s rest : List Char} {c : Char}
    (hs : pieces s = .literal c :: pieces rest) (args : List LogArg) :
    logSpec s args = (charElement c :: ·) <$> logSpec rest args := by
  unfold logSpec
  simp only [hs, placeholderCount_literal, render]
  split <;> [rfl; split <;> rfl]

/-- A placeholder takes the first argument. -/
theorem logSpec_placeholder (rest : List Char) (a : LogArg) (as : List LogArg)
    (hs : pieces ('%' :: rest) = .placeholder :: pieces rest) :
    logSpec ('%' :: rest) (a :: as) = (a.pushValue ++ ·) <$> logSpec rest as := by
  unfold logSpec
  simp only [hs, placeholderCount_placeholder, render, List.length_cons, Nat.add_right_cancel_iff,
    Nat.add_lt_add_iff_right]
  split <;> [rfl; split <;> rfl]

/-! ## The overloads compute the specification -/

/-- Both overloads push a literal character and go on with the same arguments. -/
theorem log_cons {c : Char} (hc : c ≠ '%') (hnul : c ≠ NUL) (rest : List Char)
    (args : List LogArg) : log (c :: rest) args = (charElement c :: ·) <$> log rest args := by
  cases args <;> simp [log, logNoArgs, logWithArgs, hc, hnul]

theorem log_percent_percent (rest : List Char) (args : List LogArg) :
    log ('%' :: '%' :: rest) args = (charElement '%' :: ·) <$> log rest args := by
  cases args <;> simp [log, logNoArgs, logWithArgs]

/-- For every format string `s` without a NUL, every memory `junk` after its terminator and
every argument list, `log` computes `logSpec`: it returns exactly when the placeholders and
the arguments are as many, and then pushes `s`'s literal characters with `%%` collapsed and
the `i`-th placeholder replaced by the elements of the `i`-th argument.  The result does not
depend on `junk`, so `log` never reads past the terminator. -/
theorem log_eq_logSpec (s : List Char) (hs : NUL ∉ s) (junk : List Char)
    (args : List LogArg) : log (s ++ NUL :: junk) args = logSpec s args := by
  induction s using pieces.induct generalizing args with
  | case1 =>
    cases args <;> simp [log, logNoArgs, logWithArgs, logSpec, pieces, placeholderCount, render]
  | case2 rest ih =>
    rw [List.cons_append, List.cons_append, log_percent_percent,
      ih (fun h => hs (by simp [h])), logSpec_literal (s := '%' :: '%' :: rest) rfl]
  | case3 rest hrest ih =>
    have hp : pieces ('%' :: rest) = .placeholder :: pieces rest := by
      cases rest with
      | nil => rfl
      | cons d tl =>
        have hd : d ≠ '%' := fun hd => hrest tl (by rw [hd])
        simp [pieces, hd]
    -- the character after the placeholder's `%` is not a second `%`
    obtain ⟨d, tl, hnext, hd⟩ : ∃ d tl, rest ++ NUL :: junk = d :: tl ∧ d ≠ '%' := by
      cases rest with
      | nil => exact ⟨NUL, junk, rfl, by decide⟩
      | cons d tl => exact ⟨d, tl ++ NUL :: junk, rfl, fun hd => hrest tl (by rw [hd])⟩
    cases args with
    | nil =>
      have hcount : placeholderCount (pieces ('%' :: rest)) ≠ 0 := by simp [hp]
      simp only [log, List.cons_append, logSpec, List.length_nil, hcount, if_false,
        Nat.not_lt_zero, hnext]
      simp [logNoArgs, hd]
    | cons a as =>
      rw [logSpec_placeholder rest a as hp, ← ih (fun h => hs (by simp [h])) as]
      simp only [log, List.cons_append, hnext]
      cases as <;> simp [logWithArgs, hd]
  | case4 c rest _ hc ih =>
    have hnul : c ≠ NUL := fun h => hs (by simp [h])
    rw [List.cons_append, log_cons hc hnul, ih (fun h => hs (by simp [h])),
      logSpec_literal (show pieces (c :: rest) = .literal c :: pieces rest by simp [pieces, hc])]

/-- For every NUL-terminated format string (its characters `s`, then the terminator, then any
memory `junk`) and every argument list, `log` returns without `FATAL` exactly when `s` has
as many placeholders as there are arguments; what it then pushes is `s`'s literal characters
with each `%%` collapsed and the `i`-th placeholder replaced by the elements of the `i`-th
argument, which are never rescanned; and nothing after the terminator is read. -/
theorem log_placeholders_match_args (s : List Char) (hs : NUL ∉ s) (junk : List Char)
    (args : List LogArg) :
    ((∃ out, log (s ++ NUL :: junk) args = .ok out) ↔
        placeholderCount (pieces s) = args.length) ∧
    (∀ out, log (s ++ NUL :: junk) args = .ok out → out = render (pieces s) args) ∧
    log (s ++ NUL :: junk) args = log (s ++ [NUL]) args := by
  rw [log_eq_logSpec s hs junk, log_eq_logSpec s hs []]
  refine ⟨⟨fun ⟨out, h⟩ => ?_, fun h => ⟨render (pieces s) args, by simp [logSpec, h]⟩⟩,
    fun out h => ?_, rfl⟩
  · unfold logSpec at h
    split at h
    · assumption
    · split at h <;> cases h
  · unfold logSpec at h
    split at h
    · cases h; rfl
    · split at h <;> cases h

theorem log_placeholders_match_args_example :
    NUL ∉ "a=% b=%".toList ∧
    ((∃ out, log ("a=% b=%".toList ++ NUL :: []) [.int 1, .cstr ['x', NUL]] = .ok out) ↔
        placeholderCount (pieces "a=% b=%".toList) = [LogArg.int 1, .cstr ['x', NUL]].length) ∧
    (∀ out, log ("a=% b=%".toList ++ NUL :: []) [.int 1, .cstr ['x', NUL]] = .ok out →
        out = render (pieces "a=% b=%".toList) [.int 1, .cstr ['x', NUL]]) ∧
    log ("a=% b=%".toList ++ NUL :: []) [.int 1, .cstr ['x', NUL]] =
      log ("a=% b=%".toList ++ [NUL]) [.int 1, .cstr ['x', NUL]] :=
  have hs : NUL ∉ "a=% b=%".toList := by decide
  ⟨hs, log_placeholders_match_args _ hs [] _⟩

end LowLatency
