import NativeHelper.Descriptors

/-! # The parser computes its reader

In a configuration that notices parse failures, `parseSingleTypeDescriptor` and
`parseSignatureAsList` return what the readers `readDescriptor` and `readSignature` return and
fail where these have nothing to return.  No index leaves a view, no `push_back` runs out of
storage and no assertion other than a parse failure can fire on the way. -/

namespace NativeHelper

/-- The outcome of a parse whose reader gives `o`. -/
def parsed {α : Type} (cfg : BuildConfig) : Option α → Eval (Option α)
  | some a => .ok (some a)
  | none => parseFailed cfg

section parsed
variable {cfg : BuildConfig} {α : Type}

@[simp] theorem parsed_some (a : α) : parsed cfg (some a) = .ok (some a) := rfl

@[simp] theorem parsed_none : parsed cfg (none : Option α) = parseFailed cfg := rfl

theorem parsed_returns (h : cfg.parseFailuresNonfatal = true) (o : Option α) :
    parsed cfg o = .ok o := by
  cases o with
  | some a => rfl
  | none => exact if_pos h

@[simp] theorem parsed_nonfatal (o : Option α) : parsed .nonfatal o = .ok o :=
  parsed_returns rfl o

theorem parsed_eq_some {o : Option α} {a : α} (h : parsed cfg o = .ok (some a)) :
    o = some a := by
  cases o with
  | some b => exact Except.ok.inj h
  | none =>
      obtain ⟨n, d⟩ := cfg
      cases n <;> cases h

theorem map_parsed {β : Type} (f : α → β) (o : Option α) :
    Option.map f <$> parsed cfg o = parsed cfg (o.map f) := by
  cases o with
  | some a => rfl
  | none =>
      obtain ⟨n, d⟩ := cfg
      cases n <;> rfl

theorem map_parseFailed {β : Type} {f : α → β} :
    Option.map f <$> (parseFailed cfg : Eval (Option α)) = parseFailed cfg := map_parsed f none

/-- A caller that tests the optional it got for a value fails as the callee did, whether the
callee returned `nullopt` or stopped. -/
theorem parsed_bind_parseAssert {β : Type} (h : cfg.Checks) (o : Option α)
    (k : Option α → Eval (Option β)) :
    (parsed cfg o >>= fun r => parseAssert cfg r.isSome (k r)) =
      match o with
      | some a => k (some a)
      | none => parseFailed cfg := by
  cases o with
  | some a => simp
  | none =>
      obtain ⟨n, d⟩ := cfg
      cases n with
      | true => rfl
      | false =>
          obtain rfl : d = false := h.resolve_left (by simp)
          rfl

end parsed

/-! ### Class names -/

section className
variable (cfg : BuildConfig) (k : Option ℕ → Eval (Option ParseTypeDescriptorResult))

/-- The scan from the end of `pre` stops at the first character that cannot be part of a class
name; only `;` is a success. -/
theorem scanClassName_eq (h : cfg.Checks) (suf : StringView) : ∀ pre : StringView,
    scanClassName cfg (pre ++ suf) k suf.length pre.length =
      match suf.dropWhile isClassNameChar with
      | [] => k none
      | c :: _ =>
          if c = ';' then k (some (pre.length + (suf.takeWhile isClassNameChar).length + 1))
          else parseFailed cfg := by
  induction suf with
  | nil => intro pre; rfl
  | cons c suf ih =>
      intro pre
      have hc : charAt cfg (pre ++ c :: suf) pre.length = .ok c :=
        charAt_of_getElem? cfg _ (by simp)
      have ih' := ih (pre ++ [c])
      rw [List.append_assoc, List.singleton_append, List.length_append, List.length_singleton] at ih'
      simp only [List.length_cons, scanClassName, hc, eval_bind_ok]
      by_cases hn : isClassNameChar c = true
      · obtain ⟨h1, h2, h3, h4⟩ := isClassNameChar_iff.mp hn
        have hb : ¬ (c = ')' ∨ c = '(' ∨ c = '[') := by simp [h1, h2, h3]
        rw [if_neg hb, if_neg h4, ih', List.dropWhile_cons_of_pos hn, List.takeWhile_cons_of_pos hn]
        simp only [List.length_cons]
        cases suf.dropWhile isClassNameChar with
        | nil => rfl
        | cons d t => simp only [Nat.add_assoc, Nat.add_comm 1]
      · rw [List.dropWhile_cons_of_neg hn, List.takeWhile_cons_of_neg hn]
        simp only [List.length_nil, Nat.add_zero]
        by_cases hs : c = ';'
        · subst hs
          simp
        · have hb : c = ')' ∨ c = '(' ∨ c = '[' := by
            rw [isClassNameChar_iff] at hn
            tauto
          rw [if_pos hb, parseFailure_eq h, if_neg hs]

theorem takeWhile_append_dropWhile_cons {p : Char → Bool} {s r : List Char} {c : Char}
    (h : s.dropWhile p = c :: r) : s = s.takeWhile p ++ c :: r := by
  rw [← h, List.takeWhile_append_dropWhile]

theorem parseObject_eq (h : cfg.Checks) (s : StringView) :
    parseObject cfg ('L' :: s) = parsed cfg ((readObject s).map fun (w, r) => ⟨w, r⟩) := by
  have hL : isClassNameChar 'L' = true := rfl
  have e := scanClassName_eq cfg (fun foundSemicolon =>
    parseAssert cfg foundSemicolon.isSome do
      let semicolonLen := foundSemicolon.getD 0
      let token ← substr cfg ('L' :: s) 0 semicolonLen
      let remainder ← substrFrom cfg ('L' :: s) semicolonLen
      let classNameIsEmpty : Bool := token.length ≤ 2
      parseAssert cfg (!classNameIsEmpty) (.ok (some ⟨token, remainder⟩))) h ('L' :: s) []
  simp only [List.nil_append, List.length_nil, Nat.zero_add, List.dropWhile_cons_of_pos hL,
    List.takeWhile_cons_of_pos hL] at e
  unfold parseObject readObject
  rw [e]
  cases hd : s.dropWhile isClassNameChar with
  | nil => simp [parseAssert_false h]
  | cons c r =>
      by_cases hc : c = ';'
      · subst hc
        have hs := takeWhile_append_dropWhile_cons hd
        generalize s.takeWhile isClassNameChar = name at hs ⊢
        subst hs
        have e1 : 'L' :: (name ++ ';' :: r) = ('L' :: name ++ [';']) ++ r := by simp
        have e2 : ('L' :: name).length + 1 = ('L' :: name ++ [';']).length := by simp
        simp only [if_true, Option.isSome_some, parseAssert_true, Option.getD_some, e1, e2,
          substr_append, substrFrom_append, eval_bind_ok]
        cases name with
        | nil => simp [parseAssert_false h]
        | cons d name => simp
      · simp [hc]

end className

/-! ### One type descriptor -/

/-- Letters that begin no descriptor, whatever the configuration makes of them. -/
theorem readDescriptor_eq_none {c : Char} (s : StringView) (v : Bool) (h : c ∉ primitiveLetters)
    (hV : c = 'V' → v = false) (hL : c ≠ 'L') (hA : c ≠ '[') : readDescriptor v (c :: s) = none := by
  have : ¬ (c ∈ primitiveLetters ∨ (c = 'V' ∧ v = true)) := by
    rintro (h' | ⟨h1, h2⟩)
    · exact h h'
    · rw [hV h1] at h2; cases h2
  simp [readDescriptor, this, hL, hA]

theorem readDescriptor_array (s : StringView) (v : Bool) :
    readDescriptor v ('[' :: s) = (readDescriptor false s).map fun (w, r) => ('[' :: w, r) := by
  simp [readDescriptor, primitiveLetters]

/-- `case kArray`, when the rest of the view is parsed as the reader reads it. -/
theorem parseArray_eq {cfg : BuildConfig} (h : cfg.Checks) {s : StringView} (v : Bool)
    (hs : s ≠ [] → parseSingleTypeDescriptor cfg s false =
      parsed cfg ((readDescriptor false s).map fun (w, r) => ⟨w, r⟩)) :
    (do
      let maybeRes ← parseSingleTypeDescriptor cfg s false
      parseAssert cfg maybeRes.isSome do
        let res ← optionalValue cfg maybeRes
        parseAssert cfg res.hasToken do
          let token ← substr cfg ('[' :: s) 0 (res.token.length + 1)
          .ok (some ⟨token, res.remainder⟩) : Eval (Option ParseTypeDescriptorResult)) =
      parsed cfg ((readDescriptor v ('[' :: s)).map fun (w, r) => ⟨w, r⟩) := by
  rw [readDescriptor_array]
  cases s with
  | nil =>
      simp [parseSingleTypeDescriptor, readDescriptor, ParseTypeDescriptorResult.hasToken,
        parseAssert_false h]
  | cons d s =>
      rw [hs (by simp), parsed_bind_parseAssert h]
      cases hr : readDescriptor false (d :: s) with
      | none => rfl
      | some q =>
          obtain ⟨w, r⟩ := q
          obtain ⟨hw, e⟩ := (typeDescriptor_reads _ _ _).mp hr
          have hlen : 0 < w.length := List.length_pos_iff.mpr (TypeDescriptor.ne_nil hw)
          have et : '[' :: (w ++ r) = ('[' :: w) ++ r := rfl
          have el : w.length + 1 = ('[' :: w).length := rfl
          simp only [Option.map_some, optionalValue_some, eval_bind_ok,
            ParseTypeDescriptorResult.hasToken, hlen, decide_true, parseAssert_true]
          rw [e, et, el, substr_append]
          rfl

/-- **One type descriptor**: on a non-empty view the function of the header returns what the
reader returns. -/
theorem parseSingleTypeDescriptor_eq {cfg : BuildConfig} (h : cfg.Checks) :
    ∀ (s : StringView) (v : Bool), s ≠ [] →
      parseSingleTypeDescriptor cfg s v =
        parsed cfg ((readDescriptor v s).map fun (w, r) => ⟨w, r⟩)
  | [], _, hs => absurd rfl hs
  | c :: s, v, _ => by
      unfold parseSingleTypeDescriptor
      by_cases hstart : isValidJniDescriptorStart c = true
      · rw [hstart, parseAssert_true]
        unfold parseFirstCharacter
        simp only [substr_zero_one, eval_bind_ok]
        split
        · simp [isValidJniDescriptorStart, kValidJniStarts] at hstart
        · cases v with
          | true => simp [readDescriptor]
          | false =>
              rw [readDescriptor_eq_none s false (by decide) (fun _ => rfl) (by decide) (by decide)]
              simp [parseAssert_false h]
        iterate 8 · simp [readDescriptor, primitiveLetters]
        · simp only [parseObject_eq cfg h]
          simp [readDescriptor, primitiveLetters]
        · exact parseArray_eq h v fun hs => parseSingleTypeDescriptor_eq h s false hs
        · next hV hZ hB hC hS hI hJ hF hD hL hA =>
          rw [parseFailure_eq h, readDescriptor_eq_none s v _ (fun e => (hV e).elim) hL hA]
          · rfl
          · simp only [primitiveLetters, List.mem_cons, List.not_mem_nil, or_false, not_or]
            exact ⟨hZ, hB, hC, hS, hI, hJ, hF, hD⟩
      · rw [Bool.not_eq_true] at hstart
        rw [hstart, parseAssert_false h]
        simp only [isValidJniDescriptorStart, kValidJniStarts, List.contains_cons,
          Bool.or_eq_false_iff, beq_eq_false_iff_ne] at hstart
        rw [readDescriptor_eq_none s v _ (fun e => absurd e hstart.1) _ _]
        all_goals simp [primitiveLetters, hstart]

theorem TypeDescriptor.arrays {w : StringView} (hw : TypeDescriptor w) (n : ℕ) :
    TypeDescriptor (List.replicate n '[' ++ w) := by
  induction n with
  | zero => exact hw
  | succ n ih => exact .array ih

/-- **One descriptor and nothing else is consumed** where parse failures are not fatal: a view that
begins with a descriptor is split behind it, whatever follows and however deep the array is, and
the parse returns on every view, with nothing if and only if no descriptor is in front. -/
theorem parseSingleTypeDescriptor_exact (disableAsserts allowVoid : Bool) :
    (∀ w r, Descriptor allowVoid w →
      parseSingleTypeDescriptor ⟨true, disableAsserts⟩ (w ++ r) allowVoid = .ok (some ⟨w, r⟩)) ∧
    (∀ n w r, TypeDescriptor w →
      parseSingleTypeDescriptor ⟨true, disableAsserts⟩ (List.replicate n '[' ++ w ++ r) allowVoid =
        .ok (some ⟨List.replicate n '[' ++ w, r⟩)) ∧
    ∀ s, ∃ o, parseSingleTypeDescriptor ⟨true, disableAsserts⟩ s allowVoid = .ok o ∧
      (s ≠ [] →
        (∀ res ∈ o, Descriptor allowVoid res.token ∧ res.token ++ res.remainder = s) ∧
        (o = none ↔ ∀ w, Descriptor allowVoid w → ¬ w <+: s)) := by
  have reads := readDescriptor_reads allowVoid
  have hp : ∀ s : StringView, s ≠ [] →
      parseSingleTypeDescriptor ⟨true, disableAsserts⟩ s allowVoid =
        .ok ((readDescriptor allowVoid s).map fun (w, r) => ⟨w, r⟩) := by
    intro s hs
    rw [parseSingleTypeDescriptor_eq (.inl rfl) s allowVoid hs, parsed_returns rfl]
  have hsplit : ∀ w r, Descriptor allowVoid w →
      parseSingleTypeDescriptor ⟨true, disableAsserts⟩ (w ++ r) allowVoid = .ok (some ⟨w, r⟩) := by
    intro w r hw
    rw [hp _ (by simp [hw.ne_nil]), reads.append hw r]
    rfl
  refine ⟨hsplit, fun n w r hw => hsplit _ r (.inl (hw.arrays n)), fun s => ?_⟩
  by_cases hs : s = []
  · subst hs
    exact ⟨some ⟨[], []⟩, rfl, fun h => absurd rfl h⟩
  · refine ⟨_, hp s hs, fun _ => ⟨?_, ?_⟩⟩
    · intro res hres
      obtain ⟨⟨w, r⟩, hr, rfl⟩ := Option.map_eq_some_iff.mp hres
      obtain ⟨hw, e⟩ := (reads s w r).mp hr
      exact ⟨hw, e.symm⟩
    · rw [Option.map_eq_none_iff]
      exact reads.eq_none_iff

/-! ### The loop over a signature -/

/-- The descriptors of a parsed signature. -/
def FunctionSignatureDescriptor.tokens {kMaxSize : ℕ} (sig : JniSignatureDescriptor kMaxSize) :
    List StringView × StringView := (sig.args.elems.map (·.longy), sig.ret.longy)

section loop
variable {cfg : BuildConfig} {kMaxSize : ℕ}

/-- The loop from `l` on and the `switch` after it. -/
def signatureRest (cfg : BuildConfig) (n : ℕ) (l : SignatureLoop kMaxSize) :
    Eval (Option (JniSignatureDescriptor kMaxSize)) := do
  match ← signatureLoop cfg n l with
  | none => .ok none
  | some l => signatureEnd cfg l

theorem signatureRest_nil (n : ℕ) {l : SignatureLoop kMaxSize} (hl : l.signature = []) :
    signatureRest cfg n l = signatureEnd cfg l := by
  cases n <;> simp [signatureRest, signatureLoop, hl]

/-- One round: a step that parses `o` continues from it or fails. -/
theorem signatureRest_step (h : cfg.Checks) (n : ℕ) {l : SignatureLoop kMaxSize}
    (hl : l.signature ≠ []) {o : Option (SignatureLoop kMaxSize)}
    (ho : signatureStep cfg l = parsed cfg o) :
    signatureRest cfg (n + 1) l = o.elim (parseFailed cfg) (signatureRest cfg n) := by
  have he : l.signature.isEmpty = false := by simpa using hl
  simp only [signatureRest, signatureLoop, he, ho, Bool.false_eq_true, if_false]
  cases o with
  | some l' => rfl
  | none =>
      obtain ⟨m, d⟩ := cfg
      cases m <;> rfl

theorem signatureStep_initial (h : cfg.Checks) {l : SignatureLoop kMaxSize} {c : Char}
    {s : StringView} (hst : l.state = .kInitial) (hl : l.signature = c :: s) :
    signatureStep cfg l = parsed cfg
      (if c = '(' then some { l with state := .kParsingParameters, signature := s } else none) := by
  simp only [signatureStep, hst, hl, charAt_cons_zero, substrFrom_one, eval_bind_ok]
  split_ifs with hc
  · simp [hc]
  · simp [hc, parseAssert_false h]

theorem signatureStep_close {l : SignatureLoop kMaxSize} {s : StringView}
    (hst : l.state = .kParsingParameters) (hl : l.signature = ')' :: s) :
    signatureStep cfg l =
      parsed cfg (some { l with state := .kParsingReturnType, signature := s }) := by
  simp [signatureStep, hst, hl]

theorem asNode_eq {w : StringView} (hw : w ≠ []) (r : StringView) :
    ParseTypeDescriptorResult.asNode cfg ⟨w, r⟩ = .ok ⟨w⟩ := by
  have : 0 < w.length := List.length_pos_iff.mpr hw
  simp [ParseTypeDescriptorResult.asNode, ParseTypeDescriptorResult.hasToken, this,
    jniDescriptorNode_eq cfg hw]

theorem signatureStep_parameter (h : cfg.Checks) {l : SignatureLoop kMaxSize} {c : Char}
    {s : StringView} (hst : l.state = .kParsingParameters) (hl : l.signature = c :: s)
    (hc : c ≠ ')') (hroom : l.jniDescNodeList.elems.length + 1 ≤ kMaxSize) :
    signatureStep cfg l = parsed cfg ((readDescriptor false (c :: s)).map fun (w, r) =>
      { l with jniDescNodeList := ⟨l.jniDescNodeList.elems ++ [⟨w⟩],
                 by rw [List.length_append]; exact hroom⟩,
               signature := r }) := by
  simp only [signatureStep, hst, hl, charAt_cons_zero, eval_bind_ok, if_neg hc]
  rw [parseSingleTypeDescriptor_eq h _ _ (by simp), parsed_bind_parseAssert h]
  cases hr : readDescriptor false (c :: s) with
  | none => rfl
  | some q =>
      obtain ⟨w, r⟩ := q
      have hw := TypeDescriptor.ne_nil ((typeDescriptor_reads _ _ _).mp hr).1
      simp only [Option.map_some, optionalValue_some, eval_bind_ok, asNode_eq hw,
        ConstexprVector.pushBack_eq cfg _ _ hroom]
      rfl

theorem signatureStep_return (h : cfg.Checks) {l : SignatureLoop kMaxSize}
    (hst : l.state = .kParsingReturnType) (hl : l.signature ≠ []) :
    signatureStep cfg l = parsed cfg ((readDescriptor true l.signature).map fun (w, r) =>
      { l with returnJniDesc := ⟨w⟩, signature := r, state := .kCompleted }) := by
  simp only [signatureStep, hst]
  rw [parseSingleTypeDescriptor_eq h _ _ hl, parsed_bind_parseAssert h]
  cases hr : readDescriptor true l.signature with
  | none => rfl
  | some q =>
      obtain ⟨w, r⟩ := q
      have hw := ReturnDescriptor.ne_nil ((returnDescriptor_reads _ _ _).mp hr).1
      simp only [Option.map_some, optionalValue_some, eval_bind_ok, asNode_eq hw]
      rfl

/-- After the return type nothing may be left. -/
theorem signatureRest_completed (h : cfg.Checks) (n : ℕ) {l : SignatureLoop kMaxSize}
    (hst : l.state = .kCompleted) (hn : l.signature.length ≤ n) :
    signatureRest cfg n l = parsed cfg
      (if l.signature = [] then some ⟨l.jniDescNodeList, l.returnJniDesc⟩ else none) := by
  by_cases hl : l.signature = []
  · simp [signatureRest_nil n hl, signatureEnd, hst, hl]
  · obtain ⟨n, rfl⟩ := Nat.exists_eq_succ_of_ne_zero
      (Nat.ne_of_gt (Nat.lt_of_lt_of_le (List.length_pos_iff.mpr hl) hn))
    have ho : signatureStep cfg l = parsed cfg none := by
      simp [signatureStep, hst, parseFailure_eq h]
    rw [signatureRest_step h n hl ho, if_neg hl, parsed_none]
    rfl

theorem signatureRest_return (h : cfg.Checks) (n : ℕ) {l : SignatureLoop kMaxSize}
    (hst : l.state = .kParsingReturnType) (hn : l.signature.length ≤ n) :
    signatureRest cfg n l = parsed cfg (match readDescriptor true l.signature with
      | some (ret, []) => some ⟨l.jniDescNodeList, ⟨ret⟩⟩
      | _ => none) := by
  by_cases hl : l.signature = []
  · simp [signatureRest_nil n hl, signatureEnd, hst, hl, parseFailure_eq h, readDescriptor]
  · obtain ⟨n, rfl⟩ := Nat.exists_eq_succ_of_ne_zero
      (Nat.ne_of_gt (Nat.lt_of_lt_of_le (List.length_pos_iff.mpr hl) hn))
    rw [signatureRest_step h n hl (signatureStep_return h hst hl)]
    cases hr : readDescriptor true l.signature with
    | none => rfl
    | some q =>
        obtain ⟨w, r⟩ := q
        obtain ⟨hw, e⟩ := (returnDescriptor_reads _ _ _).mp hr
        have hlen : r.length ≤ n := by
          have := congrArg List.length e
          have := List.length_pos_iff.mpr (ReturnDescriptor.ne_nil hw)
          simp only [List.length_append] at *
          omega
        simp only [Option.map_some, Option.elim_some]
        rw [signatureRest_completed h n rfl hlen]
        cases r with
        | nil => rfl
        | cons c r => rfl

/-- The rest of a signature from the parameters on. -/
def readParameters (n : ℕ) (s : StringView) : Option (List StringView × StringView) :=
  (PrefixCode.readUntil (readDescriptor false) ')' n s).bind fun (args, s') =>
    match readDescriptor true s' with
    | some (ret, []) => some (args, ret)
    | _ => none

theorem readParameters_nil (n : ℕ) : readParameters n [] = none := by
  cases n <;> rfl

theorem readParameters_close (n : ℕ) (s : StringView) :
    readParameters (n + 1) (')' :: s) =
      match readDescriptor true s with
      | some (ret, []) => some ([], ret)
      | _ => none := by
  simp [readParameters, PrefixCode.readUntil]

theorem readParameters_cons (n : ℕ) {c : Char} (s : StringView) (hc : c ≠ ')') :
    readParameters (n + 1) (c :: s) = (readDescriptor false (c :: s)).bind fun (w, r) =>
      (readParameters n r).map fun (args, ret) => (w :: args, ret) := by
  simp only [readParameters, PrefixCode.readUntil, if_neg hc, Option.bind_assoc]
  refine congrArg _ (funext fun q => ?_)
  obtain ⟨w, r⟩ := q
  cases PrefixCode.readUntil (readDescriptor false) ')' n r with
  | none => rfl
  | some q =>
      obtain ⟨args, s'⟩ := q
      simp only [Option.map_some, Option.bind_some]
      split <;> rfl

/-- **The parameters**, by induction on the rounds: what the loop has pushed stays in front of
what the reader reads.  The vector has room as every descriptor takes at least a character. -/
theorem signatureRest_parameters (h : cfg.Checks) (n : ℕ) (l : SignatureLoop kMaxSize)
    (hst : l.state = .kParsingParameters) (hn : l.signature.length ≤ n)
    (hroom : l.jniDescNodeList.elems.length + l.signature.length ≤ kMaxSize) :
    Option.map FunctionSignatureDescriptor.tokens <$> signatureRest cfg n l =
      parsed cfg ((readParameters n l.signature).map fun (args, ret) =>
        (l.jniDescNodeList.elems.map (·.longy) ++ args, ret)) := by
  induction n generalizing l with
  | zero =>
      have hl : l.signature = [] := List.length_eq_zero_iff.mp (Nat.le_zero.mp hn)
      rw [signatureRest_nil 0 hl, hl, readParameters_nil]
      simp [signatureEnd, hst, parseFailure_eq h, map_parseFailed]
  | succ n ih =>
      cases hl : l.signature with
      | nil =>
          rw [signatureRest_nil _ hl, readParameters_nil]
          simp [signatureEnd, hst, parseFailure_eq h, map_parseFailed]
      | cons c s =>
          have hne : l.signature ≠ [] := by simp [hl]
          rw [hl, List.length_cons] at hn hroom
          by_cases hc : c = ')'
          · subst hc
            rw [signatureRest_step h n hne (signatureStep_close hst hl), Option.elim_some,
              signatureRest_return h n rfl (Nat.le_of_succ_le_succ hn), map_parsed,
              readParameters_close]
            rcases readDescriptor true s with _ | ⟨ret, _ | ⟨c, r⟩⟩ <;>
              simp [FunctionSignatureDescriptor.tokens]
          · have hpush : l.jniDescNodeList.elems.length + 1 ≤ kMaxSize := by omega
            rw [signatureRest_step h n hne (signatureStep_parameter h hst hl hc hpush),
              readParameters_cons n s hc]
            cases hr : readDescriptor false (c :: s) with
            | none => exact map_parseFailed
            | some q =>
                obtain ⟨w, r⟩ := q
                obtain ⟨hw, e⟩ := (typeDescriptor_reads _ _ _).mp hr
                have hlen := congrArg List.length e
                have hpos := List.length_pos_iff.mpr (TypeDescriptor.ne_nil hw)
                simp only [List.length_cons, List.length_append] at hlen
                simp only [Option.map_some, Option.elim_some, Option.bind_some]
                have hp := ih
                  { l with jniDescNodeList :=
                             ⟨l.jniDescNodeList.elems ++ [⟨w⟩], by simpa using hpush⟩,
                           signature := r }
                  hst (by dsimp only; omega)
                  (by simp only [List.length_append, List.length_singleton]; omega)
                rw [hp]
                simp [Function.comp_def]

/-- **A whole signature**: the function of the header returns what the reader returns, given
storage for as many descriptors as the signature has characters. -/
theorem parseSignatureAsList_eq (h : cfg.Checks) (s : StringView) (hroom : s.length ≤ kMaxSize) :
    Option.map FunctionSignatureDescriptor.tokens <$> parseSignatureAsList cfg kMaxSize s =
      parsed cfg (readSignature s) := by
  let l₀ : SignatureLoop kMaxSize := ⟨s, .empty, ⟨[]⟩, .kInitial⟩
  have e : parseSignatureAsList cfg kMaxSize s = signatureRest cfg s.length l₀ := rfl
  rw [e]
  cases s with
  | nil =>
      rw [signatureRest_nil _ rfl]
      simp [l₀, signatureEnd, parseFailure_eq h, map_parseFailed, readSignature]
  | cons c s =>
      rw [List.length_cons, signatureRest_step h s.length (List.cons_ne_nil c s)
        (signatureStep_initial h rfl rfl)]
      by_cases hc : c = '('
      · subst hc
        have hs : readSignature ('(' :: s) = readParameters s.length s := rfl
        have hp := signatureRest_parameters h s.length
          { l₀ with state := .kParsingParameters, signature := s } rfl (Nat.le_refl _)
          (by simpa [l₀] using Nat.le_of_succ_le hroom)
        simp only [if_true, Option.elim_some, hp, hs]
        cases readParameters s.length s <;> simp [l₀]
      · have : readSignature (c :: s) = none := by
          unfold readSignature
          split
          · next heq => exact absurd (List.cons.inj heq).1 hc
          · rfl
        rw [if_neg hc, this]
        exact map_parseFailed

/-! ### The grammar -/

/-- A signature parses to its decomposition. -/
theorem parseSignatureAsList_of_signature (h : cfg.Checks) {s : StringView}
    (hroom : s.length ≤ kMaxSize) {args : List StringView} {ret : StringView}
    (hs : Signature s args ret) :
    ∃ sig, parseSignatureAsList cfg kMaxSize s = .ok (some sig) ∧ sig.tokens = (args, ret) := by
  have e := parseSignatureAsList_eq h s hroom
  rw [readSignature_iff.mpr hs, parsed_some] at e
  cases hp : parseSignatureAsList cfg kMaxSize s with
  | error f =>
      rw [hp] at e
      cases e
  | ok o =>
      rw [hp, eval_map_ok] at e
      obtain ⟨sig, rfl, ht⟩ := Option.map_eq_some_iff.mp (Except.ok.inj e)
      exact ⟨sig, rfl, ht⟩

/-- What parses is a signature. -/
theorem signature_of_parseSignatureAsList (h : cfg.Checks) {s : StringView}
    (hroom : s.length ≤ kMaxSize) {sig : JniSignatureDescriptor kMaxSize}
    (hp : parseSignatureAsList cfg kMaxSize s = .ok (some sig)) :
    Signature s sig.tokens.1 sig.tokens.2 := by
  have e := parseSignatureAsList_eq h s hroom
  rw [hp, eval_map_ok, Option.map_some] at e
  cases hr : readSignature s with
  | some q =>
      rw [hr, parsed_some] at e
      rw [Option.some.inj (Except.ok.inj e)]
      exact readSignature_iff.mp hr
  | none =>
      rw [hr] at e
      obtain ⟨n, d⟩ := cfg
      cases n <;> cases e

/-- In the configuration of the tests the parser always returns. -/
theorem parseSignatureAsList_returns (s : StringView) (hroom : s.length ≤ kMaxSize) :
    ∃ o, parseSignatureAsList .nonfatal kMaxSize s = .ok o := by
  have e := parseSignatureAsList_eq BuildConfig.nonfatal_checks s hroom
  rw [parsed_nonfatal] at e
  cases hp : parseSignatureAsList .nonfatal kMaxSize s with
  | ok o => exact ⟨o, rfl⟩
  | error f =>
      rw [hp] at e
      cases e

/-- **The parser accepts exactly the grammar**, and what it returns is the one decomposition of
the signature. -/
theorem parseSignatureAsList_grammar :
    (∀ s : StringView, ∃ o, parseSignatureAsList .nonfatal (s.length + 1) s = .ok o ∧
      (o.isSome = true ↔ ∃ args ret, Signature s args ret) ∧
      ∀ sig ∈ o, '(' :: sig.tokens.1.flatten ++ ')' :: sig.tokens.2 = s) ∧
    ∀ (args : List StringView) (ret : StringView),
      (∀ d ∈ args, TypeDescriptor d) → ReturnDescriptor ret →
      let s := '(' :: args.flatten ++ ')' :: ret
      ∃ sig, parseSignatureAsList .nonfatal (s.length + 1) s = .ok (some sig) ∧
        sig.tokens = (args, ret) := by
  have hc := BuildConfig.nonfatal_checks
  refine ⟨fun s => ?_, fun args ret hargs hret => ?_⟩
  · obtain ⟨o, ho⟩ := parseSignatureAsList_returns s (Nat.le_succ _)
    refine ⟨o, ho, ?_, ?_⟩
    · constructor
      · intro hsome
        obtain ⟨sig, rfl⟩ := Option.isSome_iff_exists.mp hsome
        exact ⟨_, _, signature_of_parseSignatureAsList hc (Nat.le_succ _) ho⟩
      · rintro ⟨args, ret, hs⟩
        obtain ⟨sig, hsig, _⟩ := parseSignatureAsList_of_signature hc (Nat.le_succ _) hs
        rw [Except.ok.inj (ho.symm.trans hsig)]
        rfl
    · rintro sig rfl
      exact (signature_of_parseSignatureAsList hc (Nat.le_succ _) ho).1.symm
  · exact parseSignatureAsList_of_signature hc (Nat.le_succ _) ⟨rfl, hargs, hret⟩

end loop

end NativeHelper
