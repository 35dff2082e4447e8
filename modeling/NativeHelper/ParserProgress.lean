import Mathlib.Logic.Relation
import NativeHelper.ParserExact

/-! # The parse loop makes progress

Every iteration of the `while` loop of `ParseSignatureAsList` should consume a character or leave
the function.  In a configuration that notices parse failures it does (`progress_of_checks`).  With
`JNI_SIGNATURE_CHECKER_DISABLE_ASSERTS` alone nothing leaves the function where a failure is found,
and two kinds of input stall the loop: one with something left after the return type, which then
never ends, and one with an object descriptor that has no `;`, of which nothing is consumed.
`Stalls` describes them by a grammar of what the parser takes for a descriptor when nothing is
checked, and `loop_progress_iff` says that there are no others. -/

namespace NativeHelper

section progress
variable (cfg : BuildConfig) {kMaxSize : ℕ}

/-- The variables in front of the loop. -/
def SignatureLoop.start (signature : StringView) : SignatureLoop kMaxSize :=
  ⟨signature, .empty, ⟨[]⟩, .kInitial⟩

/-- The loop is entered with `l`, and its body ends with `l'`. -/
def Iterates (l l' : SignatureLoop kMaxSize) : Prop :=
  l.signature ≠ [] ∧ signatureStep cfg l = .ok (some l')

/-- From `l` on every iteration consumes a character or leaves the function. -/
def Progress (l : SignatureLoop kMaxSize) : Prop :=
  ∀ l₁, Relation.ReflTransGen (Iterates cfg) l l₁ →
    ∀ l₂, Iterates cfg l₁ l₂ → l₂.signature.length < l₁.signature.length

/-- Some number of rounds is enough for the loop. -/
def Terminates (l : SignatureLoop kMaxSize) : Prop :=
  ∃ n, signatureLoop cfg n l ≠ .error .rounds

/-- There is a slot for every character that is left. -/
def SignatureLoop.Room (l : SignatureLoop kMaxSize) : Prop :=
  l.jniDescNodeList.elems.length + l.signature.length ≤ kMaxSize

variable {cfg}

theorem Progress.step {l l' : SignatureLoop kMaxSize} (h : Progress cfg l) (hi : Iterates cfg l l') :
    l'.signature.length < l.signature.length ∧ Progress cfg l' :=
  ⟨h l .refl l' hi, fun l₁ hr => h l₁ (.head hi hr)⟩

/-- What holds in front of the loop and through every iteration, which makes progress, is enough
for progress. -/
theorem progress_of_invariant {P : SignatureLoop kMaxSize → Prop}
    (h : ∀ l l', P l → Iterates cfg l l' → l'.signature.length < l.signature.length ∧ P l')
    {l : SignatureLoop kMaxSize} (hl : P l) : Progress cfg l := by
  intro l₁ hr
  have hP : P l₁ := by
    induction hr with
    | refl => exact hl
    | tail _ hi ih => exact (h _ _ ih hi).2
  intro l₂ hi
  exact (h l₁ l₂ hP hi).1

/-- A loop that makes progress ends, within a round for every character, if no body by itself runs
forever. -/
theorem terminates_of_invariant {P : SignatureLoop kMaxSize → Prop}
    (h : ∀ l l', P l → Iterates cfg l l' → l'.signature.length < l.signature.length ∧ P l')
    (hb : ∀ l, P l → l.signature ≠ [] → signatureStep cfg l ≠ .error .rounds)
    {l : SignatureLoop kMaxSize} (hl : P l) : Terminates cfg l := by
  have loop : ∀ n (l : SignatureLoop kMaxSize), P l → l.signature.length ≤ n →
      signatureLoop cfg n l ≠ .error .rounds := by
    intro n
    induction n with
    | zero =>
        intro l _ hn
        have he : l.signature = [] := List.length_eq_zero_iff.mp (Nat.le_zero.mp hn)
        simp [signatureLoop, he]
    | succ n ih =>
        intro l hl hn
        by_cases he : l.signature = []
        · simp [signatureLoop, he]
        · have hne : l.signature.isEmpty = false := by simpa using he
          have hs := hb l hl he
          unfold signatureLoop
          rw [hne, if_neg Bool.false_ne_true]
          cases hst : signatureStep cfg l with
          | error f =>
              rw [hst] at hs
              exact hs
          | ok o =>
              cases o with
              | none => simp
              | some l' =>
                  obtain ⟨hlt, hl'⟩ := h l l' hl ⟨he, hst⟩
                  exact ih l' hl' (by omega)
  exact ⟨l.signature.length, loop _ l hl (Nat.le_refl _)⟩

end progress

/-! ### Configurations that notice parse failures -/

section checks
variable {cfg : BuildConfig} {kMaxSize : ℕ}

theorem parsed_ne_rounds {α : Type} (o : Option α) : parsed cfg o ≠ .error .rounds := by
  intro h
  cases o with
  | some b => cases h
  | none =>
      obtain ⟨n, d⟩ := cfg
      cases n <;> cases h

/-- The body of the loop is a parse, and what it parses is shorter. -/
theorem signatureStep_parsed (h : cfg.Checks) {l : SignatureLoop kMaxSize} (hl : l.signature ≠ [])
    (hroom : l.Room) :
    ∃ o, signatureStep cfg l = parsed cfg o ∧
      ∀ l', o = some l' → l'.signature.length < l.signature.length ∧ l'.Room := by
  unfold SignatureLoop.Room at hroom ⊢
  obtain ⟨c, s, hcs⟩ := List.exists_cons_of_ne_nil hl
  have hlen : l.signature.length = s.length + 1 := by rw [hcs, List.length_cons]
  cases hst : l.state with
  | kInitial =>
      refine ⟨_, signatureStep_initial h hst hcs, ?_⟩
      intro l' he
      split_ifs at he with hc
      cases he
      dsimp only
      omega
  | kParsingParameters =>
      by_cases hc : c = ')'
      · subst hc
        refine ⟨_, signatureStep_close hst hcs, ?_⟩
        intro l' he
        cases he
        dsimp only
        omega
      · refine ⟨_, signatureStep_parameter h hst hcs hc (by omega), ?_⟩
        intro l' he
        obtain ⟨⟨w, r⟩, hr, rfl⟩ := Option.map_eq_some_iff.mp he
        obtain ⟨hw, e⟩ := (typeDescriptor_reads _ _ _).mp hr
        have hpos := List.length_pos_iff.mpr (TypeDescriptor.ne_nil hw)
        have := congrArg List.length e
        rw [List.length_cons, List.length_append] at this
        simp only [List.length_append, List.length_singleton]
        omega
  | kParsingReturnType =>
      refine ⟨_, signatureStep_return h hst hl, ?_⟩
      intro l' he
      obtain ⟨⟨w, r⟩, hr, rfl⟩ := Option.map_eq_some_iff.mp he
      obtain ⟨hw, e⟩ := (returnDescriptor_reads _ _ _).mp hr
      have hpos := List.length_pos_iff.mpr (ReturnDescriptor.ne_nil hw)
      have := congrArg List.length e
      rw [List.length_append] at this
      dsimp only
      omega
  | kCompleted =>
      refine ⟨none, by simp [signatureStep, hst, parseFailure_eq h], ?_⟩
      intro l' he
      cases he

theorem iterates_of_checks (h : cfg.Checks) (l l' : SignatureLoop kMaxSize) (hroom : l.Room)
    (hi : Iterates cfg l l') : l'.signature.length < l.signature.length ∧ l'.Room := by
  obtain ⟨hl, hst⟩ := hi
  obtain ⟨o, ho, hlt⟩ := signatureStep_parsed h hl hroom
  rw [ho] at hst
  exact hlt l' (parsed_eq_some hst)

/-- **Noticed parse failures** leave the function, and everything else consumes a character. -/
theorem progress_of_checks (h : cfg.Checks) {l : SignatureLoop kMaxSize} (hroom : l.Room) :
    Progress cfg l ∧ Terminates cfg l := by
  have hi := @iterates_of_checks cfg kMaxSize h
  refine ⟨progress_of_invariant hi hroom, terminates_of_invariant hi ?_ hroom⟩
  intro l hroom hl
  obtain ⟨o, ho, _⟩ := signatureStep_parsed h hl hroom
  rw [ho]
  exact parsed_ne_rounds o

end checks

/-! ### What is taken for a descriptor when nothing is checked -/

/-- `JNI_SIGNATURE_CHECKER_DISABLE_ASSERTS` alone. -/
def BuildConfig.unchecked : BuildConfig := ⟨false, true⟩

/-- The characters that make a token of their own. -/
def laxLetters : List Char := ['!', 'V', 'Z', 'B', 'C', 'S', 'I', 'J', 'F', 'D']

/-- What the parser takes for a descriptor when nothing is checked. -/
inductive LaxDescriptor : StringView → Prop
  | letter {c : Char} (hc : c ∈ laxLetters) : LaxDescriptor [c]
  | object {name : StringView} (hname : ';' ∉ name) : LaxDescriptor ('L' :: name ++ [';'])
  | array {d : StringView} (hd : LaxDescriptor d) : LaxDescriptor ('[' :: d)

/-- An object descriptor without a `;`, or an array of one. -/
inductive OpenObject : StringView → Prop
  | object {name : StringView} (hname : ';' ∉ name) : OpenObject ('L' :: name)
  | array {d : StringView} (hd : OpenObject d) : OpenObject ('[' :: d)

/-- Behind the descriptors of some parameters, or behind the `)` after them, there is an object
descriptor without a `;`, or there is something left after the return type. -/
def Stalls (s : StringView) : Prop :=
  ∃ (c : Char) (ds : List StringView) (r : StringView),
    s = c :: ds.flatten ++ r ∧ (∀ d ∈ ds, LaxDescriptor d) ∧
    (OpenObject r ∨ ∃ r', r = ')' :: r' ∧
      (OpenObject r' ∨ ∃ d t, LaxDescriptor d ∧ t ≠ [] ∧ r' = d ++ t))

def notSemicolon (c : Char) : Bool := c ≠ ';'

theorem notSemicolon_iff {c : Char} : notSemicolon c = true ↔ c ≠ ';' := by simp [notSemicolon]

theorem notSemicolon_of_notMem {name : StringView} (hname : ';' ∉ name) :
    ∀ c ∈ name, notSemicolon c = true := by
  intro c hc
  rw [notSemicolon_iff]
  rintro rfl
  exact hname hc

/-- What is left behind an object descriptor: all of it if there is no `;`. -/
def laxObject (r : StringView) : StringView :=
  match r.dropWhile notSemicolon with
  | [] => 'L' :: r
  | _ :: t => t

/-- What is left behind a descriptor, or nothing where the parser stops. -/
def laxRest : StringView → Option StringView
  | [] => some []
  | c :: r =>
      if c ∈ laxLetters then some r
      else if c = 'L' then some (laxObject r)
      else if c = '[' then laxRest r
      else none

section lax

theorem LaxDescriptor.ne_nil {d : StringView} (h : LaxDescriptor d) : d ≠ [] := by
  cases h <;> simp

/-- No descriptor begins with the `)` behind the parameters. -/
theorem LaxDescriptor.head_ne {c : Char} {d : StringView} (h : LaxDescriptor (c :: d)) :
    c ≠ ')' := by
  rintro rfl
  cases h with
  | letter hc => exact absurd hc (by decide)

theorem OpenObject.ne_nil {d : StringView} (h : OpenObject d) : d ≠ [] := by
  cases h <;> simp

theorem OpenObject.head_ne {c : Char} {d : StringView} (h : OpenObject (c :: d)) : c ≠ ')' := by
  rintro rfl
  cases h

theorem laxObject_append {name : StringView} (hname : ';' ∉ name) (r : StringView) :
    laxObject (name ++ ';' :: r) = r := by
  have hsemi : ¬ notSemicolon ';' = true := by decide
  unfold laxObject
  rw [List.dropWhile_append_of_pos (notSemicolon_of_notMem hname), List.dropWhile_cons_of_neg hsemi]

theorem laxObject_of_notMem {name : StringView} (hname : ';' ∉ name) :
    laxObject name = 'L' :: name := by
  have hnil : name.dropWhile notSemicolon = [] :=
    List.dropWhile_eq_nil_iff.mpr (notSemicolon_of_notMem hname)
  unfold laxObject
  rw [hnil]

theorem laxRest_letter {c : Char} (hc : c ∈ laxLetters) (r : StringView) :
    laxRest (c :: r) = some r := if_pos hc

theorem laxRest_object (r : StringView) : laxRest ('L' :: r) = some (laxObject r) := by
  simp [laxRest, laxLetters]

theorem laxRest_array (r : StringView) : laxRest ('[' :: r) = laxRest r := by
  simp [laxRest, laxLetters]

theorem laxRest_append {d : StringView} (h : LaxDescriptor d) (r : StringView) :
    laxRest (d ++ r) = some r := by
  induction h with
  | letter hc => exact laxRest_letter hc r
  | @object name hname =>
      rw [List.cons_append, List.cons_append, List.append_assoc, List.singleton_append,
        laxRest_object, laxObject_append hname]
  | array _ ih => rw [List.cons_append, laxRest_array, ih]

/-- The brackets in front of an unfinished object descriptor are consumed, the rest is not. -/
theorem laxRest_openObject {s : StringView} (h : OpenObject s) :
    ∃ name, ';' ∉ name ∧ laxRest s = some ('L' :: name) := by
  induction h with
  | @object name hname =>
      refine ⟨name, hname, ?_⟩
      rw [laxRest_object, laxObject_of_notMem hname]
  | array _ ih =>
      obtain ⟨name, hname, e⟩ := ih
      exact ⟨name, hname, by rw [laxRest_array, e]⟩

/-- A descriptor was consumed, or one without `;` is left, or nothing but brackets was there. -/
theorem laxRest_cases : ∀ (s t : StringView), laxRest s = some t →
    (∃ d, LaxDescriptor d ∧ s = d ++ t) ∨ OpenObject s ∨ t = []
  | [], t, h => .inr (.inr (Option.some.inj h).symm)
  | c :: r, t, h => by
      unfold laxRest at h
      split_ifs at h with hc hL hA
      · obtain rfl := Option.some.inj h
        exact .inl ⟨[c], .letter hc, rfl⟩
      · subst hL
        have ht := Option.some.inj h
        by_cases hs : ';' ∈ r
        · obtain ⟨name, t', rfl, hname⟩ := List.eq_append_cons_of_mem hs
          rw [laxObject_append hname] at ht
          subst ht
          exact .inl ⟨_, .object hname, by simp⟩
        · exact .inr (.inl (.object hs))
      · subst hA
        rcases laxRest_cases r t h with ⟨d, hd, rfl⟩ | ho | ht
        · exact .inl ⟨_, .array hd, rfl⟩
        · exact .inr (.inl (.array ho))
        · exact .inr (.inr ht)

end lax

/-! ### The unchecked parser -/

section unchecked

@[simp] theorem xAssert_unchecked (check : Bool) : xAssert .unchecked check = .ok () := rfl

@[simp] theorem parseFailure_unchecked {α : Type} (k : Eval (Option α)) :
    parseFailure .unchecked k = k := rfl

@[simp] theorem parseAssert_unchecked {α : Type} (cond : Bool) (k : Eval (Option α)) :
    parseAssert .unchecked cond k = k := rfl

/-- The scan goes on to the first `;`, whatever it meets. -/
theorem scanClassName_unchecked (k : Option ℕ → Eval (Option ParseTypeDescriptorResult))
    (suf : StringView) : ∀ pre : StringView,
    scanClassName .unchecked (pre ++ suf) k suf.length pre.length =
      match suf.dropWhile notSemicolon with
      | [] => k none
      | _ :: _ => k (some (pre.length + (suf.takeWhile notSemicolon).length + 1)) := by
  induction suf with
  | nil => intro pre; rfl
  | cons c suf ih =>
      intro pre
      have hc : charAt .unchecked (pre ++ c :: suf) pre.length = .ok c :=
        charAt_of_getElem? _ _ (by simp)
      have ih' := ih (pre ++ [c])
      rw [List.append_assoc, List.singleton_append, List.length_append, List.length_singleton] at ih'
      simp only [List.length_cons, scanClassName, hc, eval_bind_ok, parseFailure_unchecked, ite_self,
        ih']
      by_cases hs : c = ';'
      · subst hs
        have hsemi : ¬ notSemicolon ';' = true := by decide
        rw [if_pos rfl, List.dropWhile_cons_of_neg hsemi, List.takeWhile_cons_of_neg hsemi]
        rfl
      · have hp : notSemicolon c = true := notSemicolon_iff.mpr hs
        rw [if_neg hs, List.dropWhile_cons_of_pos hp, List.takeWhile_cons_of_pos hp]
        simp only [List.length_cons]
        cases suf.dropWhile notSemicolon with
        | nil => rfl
        | cons d t => simp only [Nat.add_assoc, Nat.add_comm 1]

theorem parseObject_unchecked (r : StringView) :
    ∃ token, parseObject .unchecked ('L' :: r) = .ok (some ⟨token, laxObject r⟩) ∧
      token.length ≤ r.length + 1 := by
  have e := scanClassName_unchecked (fun foundSemicolon =>
    parseAssert .unchecked foundSemicolon.isSome do
      let semicolonLen := foundSemicolon.getD 0
      let token ← substr .unchecked ('L' :: r) 0 semicolonLen
      let remainder ← substrFrom .unchecked ('L' :: r) semicolonLen
      let classNameIsEmpty : Bool := token.length ≤ 2
      parseAssert .unchecked (!classNameIsEmpty) (.ok (some ⟨token, remainder⟩))) ('L' :: r) []
  have hL : notSemicolon 'L' = true := by decide
  simp only [List.nil_append, List.length_nil, Nat.zero_add] at e
  rw [List.dropWhile_cons_of_pos hL, List.takeWhile_cons_of_pos hL] at e
  unfold parseObject laxObject
  rw [e]
  cases hd : r.dropWhile notSemicolon with
  | nil =>
      refine ⟨[], ?_, Nat.zero_le _⟩
      simp [substr, substrFrom]
  | cons c t =>
      have hr := takeWhile_append_dropWhile_cons hd
      generalize r.takeWhile notSemicolon = name at hr ⊢
      subst hr
      have e1 : 'L' :: (name ++ c :: t) = ('L' :: name ++ [c]) ++ t := by simp
      have e2 : ('L' :: name).length + 1 = ('L' :: name ++ [c]).length := by simp
      refine ⟨'L' :: name ++ [c], ?_, ?_⟩
      · simp only [parseAssert_unchecked, Option.getD_some, e1, e2, substr_append,
          substrFrom_append, eval_bind_ok]
      · simp only [List.length_append, List.length_cons, List.length_nil]
        omega

/-- **One descriptor, unchecked**: the parser stops or leaves `laxRest` behind. -/
theorem parseSingleTypeDescriptor_unchecked : ∀ (s : StringView) (v : Bool),
    (laxRest s = none ∧ (parseSingleTypeDescriptor .unchecked s v = .ok none ∨
      parseSingleTypeDescriptor .unchecked s v = .error .stray)) ∨
    ∃ token t, laxRest s = some t ∧ token.length ≤ s.length ∧
      parseSingleTypeDescriptor .unchecked s v = .ok (some ⟨token, t⟩)
  | [], _ => .inr ⟨[], [], rfl, Nat.zero_le _, rfl⟩
  | c :: s, v => by
      unfold parseSingleTypeDescriptor parseFirstCharacter
      simp only [parseAssert_unchecked, substr_zero_one, eval_bind_ok, ite_self]
      split
      · exact .inr ⟨_, s, laxRest_letter (by decide) s, by simp, rfl⟩
      iterate 9 · exact .inr ⟨_, s, laxRest_letter (by decide) s, by simp, rfl⟩
      · obtain ⟨token, e, hlen⟩ := parseObject_unchecked s
        exact .inr ⟨token, laxObject s, laxRest_object s, by simpa using hlen, e⟩
      · rw [laxRest_array]
        rcases parseSingleTypeDescriptor_unchecked s false with ⟨hn, he | he⟩ | ⟨token, t, ht, hlen, he⟩
        · refine .inl ⟨hn, .inr ?_⟩
          rw [he]
          rfl
        · refine .inl ⟨hn, .inr ?_⟩
          rw [he]
          rfl
        · refine .inr ⟨('[' :: s).take (token.length + 1), t, ht, ?_, ?_⟩
          · exact List.length_take_le' _ _
          · simp [he, substr, hlen]
      · next h1 h2 h3 h4 h5 h6 h7 h8 h9 h10 hL hA =>
        refine .inl ⟨?_, .inl rfl⟩
        have hc : c ∉ laxLetters := by
          simp only [laxLetters, List.mem_cons, List.not_mem_nil, or_false, not_or]
          exact ⟨h1, h2, h3, h4, h5, h6, h7, h8, h9, h10⟩
        rw [laxRest, if_neg hc, if_neg hL, if_neg hA]

variable {kMaxSize : ℕ} {l : SignatureLoop kMaxSize}

theorem signatureStep_unchecked_initial {c : Char} {s : StringView} (hst : l.state = .kInitial)
    (hl : l.signature = c :: s) :
    signatureStep .unchecked l =
      .ok (some { l with state := .kParsingParameters, signature := s }) := by
  simp [signatureStep, hst, hl]

/-- A parameter is pushed, empty or not, and the loop goes on behind it. -/
theorem signatureStep_unchecked_parameter {c : Char} {s : StringView}
    (hst : l.state = .kParsingParameters) (hl : l.signature = c :: s) (hc : c ≠ ')')
    (hroom : l.jniDescNodeList.elems.length + 1 ≤ kMaxSize) :
    (laxRest l.signature = none ∧ signatureStep .unchecked l = .error .stray) ∨
    ∃ l', laxRest l.signature = some l'.signature ∧ signatureStep .unchecked l = .ok (some l') ∧
      l'.state = .kParsingParameters ∧
      l'.jniDescNodeList.elems.length = l.jniDescNodeList.elems.length + 1 := by
  unfold signatureStep
  simp only [hst, hl, charAt_cons_zero, eval_bind_ok, if_neg hc]
  rcases parseSingleTypeDescriptor_unchecked (c :: s) false with ⟨hn, he | he⟩ | ⟨token, t, ht, _, he⟩
  · refine .inl ⟨hn, ?_⟩
    rw [he]
    rfl
  · refine .inl ⟨hn, ?_⟩
    rw [he]
    rfl
  · have hnode : ParseTypeDescriptorResult.asNode .unchecked ⟨token, t⟩ = .ok ⟨token⟩ := rfl
    let args : ConstexprVector JniDescriptorNode kMaxSize :=
      ⟨l.jniDescNodeList.elems ++ [⟨token⟩], by rw [List.length_append]; exact hroom⟩
    refine .inr ⟨⟨t, args, l.returnJniDesc, .kParsingParameters⟩, ht, ?_, rfl, ?_⟩
    · rw [he]
      simp only [eval_bind_ok, parseAssert_unchecked, optionalValue_some, hnode,
        ConstexprVector.pushBack_eq .unchecked _ _ hroom]
      rfl
    · exact List.length_append

theorem signatureStep_unchecked_return (hst : l.state = .kParsingReturnType) :
    (laxRest l.signature = none ∧ signatureStep .unchecked l = .error .stray) ∨
    ∃ l', laxRest l.signature = some l'.signature ∧ signatureStep .unchecked l = .ok (some l') ∧
      l'.state = .kCompleted ∧ l'.jniDescNodeList = l.jniDescNodeList := by
  unfold signatureStep
  simp only [hst]
  rcases parseSingleTypeDescriptor_unchecked l.signature true with
    ⟨hn, he | he⟩ | ⟨token, t, ht, _, he⟩
  · refine .inl ⟨hn, ?_⟩
    rw [he]
    rfl
  · refine .inl ⟨hn, ?_⟩
    rw [he]
    rfl
  · have hnode : ParseTypeDescriptorResult.asNode .unchecked ⟨token, t⟩ = .ok ⟨token⟩ := rfl
    refine .inr ⟨{ l with returnJniDesc := ⟨token⟩, signature := t, state := .kCompleted },
      ht, ?_, rfl, rfl⟩
    rw [he]
    simp only [eval_bind_ok, parseAssert_unchecked, optionalValue_some, hnode]

/-- Behind the return type the body does nothing. -/
theorem signatureStep_unchecked_completed (hst : l.state = .kCompleted) :
    signatureStep .unchecked l = .ok (some l) := by
  simp [signatureStep, hst]

/-- **Leftovers behind the return type** are never consumed, and the loop never ends. -/
theorem signatureLoop_unchecked_completed (hst : l.state = .kCompleted) (hl : l.signature ≠ []) :
    ∀ n, signatureLoop .unchecked n l = .error .rounds := by
  have he : l.signature.isEmpty = false := by simpa using hl
  intro n
  induction n with
  | zero => simp [signatureLoop, he]
  | succ n ih =>
      rw [signatureLoop, he, if_neg Bool.false_ne_true, signatureStep_unchecked_completed hst]
      exact ih

end unchecked

/-! ### Inputs that stall -/

section stalls
variable {kMaxSize : ℕ}

/-- The iteration for a parameter behind which the parser leaves `t`. -/
theorem iterates_parameter {l : SignatureLoop kMaxSize} {c : Char} {s t : StringView}
    (hst : l.state = .kParsingParameters) (hl : l.signature = c :: s) (hc : c ≠ ')')
    (hroom : l.jniDescNodeList.elems.length + 1 ≤ kMaxSize) (hrest : laxRest l.signature = some t) :
    ∃ l', Iterates .unchecked l l' ∧ l'.signature = t ∧ l'.state = .kParsingParameters ∧
      l'.jniDescNodeList.elems.length = l.jniDescNodeList.elems.length + 1 := by
  rcases signatureStep_unchecked_parameter hst hl hc hroom with ⟨hn, _⟩ | ⟨l', hr, hs, hst', hlen⟩
  · rw [hrest] at hn
    cases hn
  · have hne : l.signature ≠ [] := by
      rw [hl]
      exact List.cons_ne_nil c s
    exact ⟨l', ⟨hne, hs⟩, Option.some.inj (hr.symm.trans hrest), hst', hlen⟩

/-- Nothing is consumed of an object descriptor without `;`, whose brackets go first. -/
theorem not_progress_of_openObject {l : SignatureLoop kMaxSize} (hst : l.state = .kParsingParameters)
    (hroom : l.Room) (ho : OpenObject l.signature) : ¬ Progress .unchecked l := by
  intro h
  unfold SignatureLoop.Room at hroom
  obtain ⟨c, s, hcs⟩ := List.exists_cons_of_ne_nil ho.ne_nil
  have hlen : l.signature.length = s.length + 1 := by rw [hcs, List.length_cons]
  obtain ⟨name, hname, hrest⟩ := laxRest_openObject ho
  obtain ⟨l₁, hi₁, hsig₁, hst₁, hlen₁⟩ :=
    iterates_parameter hst hcs (hcs ▸ ho).head_ne (by omega) hrest
  have hlt₁ := h l .refl l₁ hi₁
  have hlen₂ : l₁.signature.length = name.length + 1 := by rw [hsig₁, List.length_cons]
  -- the second iteration starts at the `L` and stays there
  have hrest₁ : laxRest l₁.signature = some ('L' :: name) := by
    rw [hsig₁, laxRest_object, laxObject_of_notMem hname]
  obtain ⟨l₂, hi₂, hsig₂, _, _⟩ := iterates_parameter hst₁ hsig₁ (by decide) (by omega) hrest₁
  have hlt₂ := h l₁ (.single hi₁) l₂ hi₂
  rw [hsig₁, hsig₂] at hlt₂
  omega

/-- Nothing is consumed of what is left behind the return type. -/
theorem not_progress_of_return {l : SignatureLoop kMaxSize} (hst : l.state = .kParsingReturnType)
    (hl : l.signature ≠ []) {t : StringView} (hrest : laxRest l.signature = some t) (ht : t ≠ []) :
    ¬ Progress .unchecked l := by
  intro h
  rcases signatureStep_unchecked_return hst with ⟨hn, _⟩ | ⟨l₁, hr₁, hs₁, hst₁, _⟩
  · rw [hrest] at hn
    cases hn
  · have hsig : l₁.signature = t := Option.some.inj (hr₁.symm.trans hrest)
    have hi₁ : Iterates .unchecked l l₁ := ⟨hl, hs₁⟩
    have hi₂ : Iterates .unchecked l₁ l₁ :=
      ⟨by rw [hsig]; exact ht, signatureStep_unchecked_completed hst₁⟩
    have := h l₁ (.single hi₁) l₁ hi₂
    omega

/-- The parameters in front of `r` are consumed one by one. -/
theorem reaches_parameters {ds : List StringView} (hds : ∀ d ∈ ds, LaxDescriptor d)
    (r : StringView) {l : SignatureLoop kMaxSize} (hst : l.state = .kParsingParameters)
    (hl : l.signature = ds.flatten ++ r) (hroom : l.Room) :
    ∃ l', Relation.ReflTransGen (Iterates .unchecked) l l' ∧ l'.state = .kParsingParameters ∧
      l'.signature = r ∧ l'.Room := by
  induction ds generalizing l with
  | nil => exact ⟨l, .refl, hst, hl, hroom⟩
  | cons d ds ih =>
      rw [List.forall_mem_cons] at hds
      obtain ⟨c, u, rfl⟩ := List.exists_cons_of_ne_nil hds.1.ne_nil
      rw [List.flatten_cons, List.append_assoc] at hl
      have hrest := laxRest_append hds.1 (ds.flatten ++ r)
      have hlen := congrArg List.length hl
      unfold SignatureLoop.Room at hroom
      simp only [List.length_append, List.length_cons] at hlen
      rw [← hl] at hrest
      obtain ⟨l₁, hi, hsig, hst₁, hlen₁⟩ :=
        iterates_parameter hst hl hds.1.head_ne (by omega) hrest
      have hroom₁ : l₁.Room := by
        unfold SignatureLoop.Room
        rw [hsig, List.length_append]
        omega
      obtain ⟨l', hreach, hl'⟩ := ih hds.2 hst₁ hsig hroom₁
      exact ⟨l', .head hi hreach, hl'⟩

theorem Progress.of_reaches {cfg : BuildConfig} {l l' : SignatureLoop kMaxSize}
    (h : Progress cfg l) (hr : Relation.ReflTransGen (Iterates cfg) l l') : Progress cfg l' :=
  fun l₁ hr₁ => h l₁ (hr.trans hr₁)

theorem not_progress_of_stalls {s : StringView} (hroom : s.length ≤ kMaxSize) (h : Stalls s) :
    ¬ Progress .unchecked (SignatureLoop.start s : SignatureLoop kMaxSize) := by
  obtain ⟨c, ds, r, rfl, hds, hr⟩ := h
  intro hp
  have hi : Iterates .unchecked (SignatureLoop.start (c :: ds.flatten ++ r))
      (⟨ds.flatten ++ r, .empty, ⟨[]⟩, .kParsingParameters⟩ : SignatureLoop kMaxSize) :=
    ⟨List.cons_ne_nil _ _, signatureStep_unchecked_initial rfl rfl⟩
  have hroom₁ : (⟨ds.flatten ++ r, .empty, ⟨[]⟩, .kParsingParameters⟩ :
      SignatureLoop kMaxSize).Room := by
    unfold SignatureLoop.Room
    rw [List.cons_append, List.length_cons] at hroom
    rw [ConstexprVector.elems_empty, List.length_nil, Nat.zero_add]
    exact Nat.le_of_succ_le hroom
  obtain ⟨l, hreach, hst, hl, hroom₂⟩ := reaches_parameters hds r rfl rfl hroom₁
  have hp₂ : Progress .unchecked l := hp.of_reaches (.head hi hreach)
  rcases hr with ho | ⟨r', rfl, hr'⟩
  · exact not_progress_of_openObject hst hroom₂ (hl ▸ ho) hp₂
  · have hi' : Iterates .unchecked l { l with state := .kParsingReturnType, signature := r' } :=
      ⟨by rw [hl]; exact List.cons_ne_nil _ _, signatureStep_close hst hl⟩
    have hp₃ := hp₂.of_reaches (.single hi')
    rcases hr' with ho | ⟨d, t, hd, ht, rfl⟩
    · obtain ⟨name, _, hrest⟩ := laxRest_openObject ho
      exact not_progress_of_return rfl ho.ne_nil hrest (List.cons_ne_nil _ _) hp₃
    · refine not_progress_of_return rfl ?_ (laxRest_append hd t) ht hp₃
      simp [hd.ne_nil]

/-! ### Inputs that do not -/

/-- What the loop has consumed, unless it has come to the end. -/
def Consumed (s : StringView) (l : SignatureLoop kMaxSize) : Prop :=
  match l.state with
  | .kInitial => l.signature = s
  | .kParsingParameters => l.signature = [] ∨ ∃ (c : Char) (ds : List StringView),
      s = c :: ds.flatten ++ l.signature ∧ ∀ d ∈ ds, LaxDescriptor d
  | .kParsingReturnType => l.signature = [] ∨ ∃ (c : Char) (ds : List StringView),
      s = c :: ds.flatten ++ ')' :: l.signature ∧ ∀ d ∈ ds, LaxDescriptor d
  | .kCompleted => l.signature = []

/-- On an input that does not stall the body stops, or consumes a character and keeps count. -/
theorem consumed_step {s : StringView} (hs : ¬ Stalls s) {l : SignatureLoop kMaxSize}
    (hl : l.Room ∧ Consumed s l) (hne : l.signature ≠ []) :
    signatureStep .unchecked l = .error .stray ∨ ∃ l', signatureStep .unchecked l = .ok (some l') ∧
      l'.signature.length < l.signature.length ∧ l'.Room ∧ Consumed s l' := by
  obtain ⟨hroom, hcons⟩ := hl
  unfold SignatureLoop.Room at hroom ⊢
  unfold Consumed at hcons
  obtain ⟨c, u, hcu⟩ := List.exists_cons_of_ne_nil hne
  have hlen : l.signature.length = u.length + 1 := by rw [hcu, List.length_cons]
  cases hst : l.state with
  | kInitial =>
      simp only [hst] at hcons
      refine .inr ⟨_, signatureStep_unchecked_initial hst hcu, ?_, ?_, .inr ⟨c, [], ?_, ?_⟩⟩
      · dsimp only
        omega
      · dsimp only
        omega
      · rw [← hcons, hcu]
        rfl
      · simp
  | kParsingParameters =>
      simp only [hst] at hcons
      obtain ⟨c₀, ds, hsplit, hds⟩ := hcons.resolve_left hne
      by_cases hc : c = ')'
      · subst hc
        refine .inr ⟨_, signatureStep_close hst hcu, ?_, ?_, .inr ⟨c₀, ds, ?_, hds⟩⟩
        · dsimp only
          omega
        · dsimp only
          omega
        · rw [hsplit, hcu]
      · rcases signatureStep_unchecked_parameter hst hcu hc (by omega) with
          ⟨_, he⟩ | ⟨l', hr, he, hst', hlen'⟩
        · exact .inl he
        · refine .inr ⟨l', he, ?_⟩
          unfold Consumed
          simp only [hst']
          rcases laxRest_cases _ _ hr with ⟨d, hd, e⟩ | ho | ht
          · have hpos := List.length_pos_iff.mpr hd.ne_nil
            have := congrArg List.length e
            rw [List.length_append] at this
            refine ⟨by omega, by omega, .inr ⟨c₀, ds ++ [d], ?_, ?_⟩⟩
            · rw [hsplit, e]
              simp
            · intro d' hd'
              rcases List.mem_append.mp hd' with hd' | hd'
              · exact hds d' hd'
              · rw [List.mem_singleton.mp hd']
                exact hd
          · exact absurd ⟨c₀, ds, l.signature, hsplit, hds, .inl ho⟩ hs
          · have : l'.signature.length = 0 := by rw [ht, List.length_nil]
            exact ⟨by omega, by omega, .inl ht⟩
  | kParsingReturnType =>
      simp only [hst] at hcons
      obtain ⟨c₀, ds, hsplit, hds⟩ := hcons.resolve_left hne
      rcases signatureStep_unchecked_return hst with ⟨_, he⟩ | ⟨l', hr, he, hst', hargs⟩
      · exact .inl he
      · refine .inr ⟨l', he, ?_⟩
        unfold Consumed
        simp only [hst']
        have hend : l'.signature = [] := by
          by_contra ht
          rcases laxRest_cases _ _ hr with ⟨d, hd, e⟩ | ho | ht'
          · exact hs ⟨c₀, ds, _, hsplit, hds, .inr ⟨_, rfl, .inr ⟨d, _, hd, ht, e⟩⟩⟩
          · exact hs ⟨c₀, ds, _, hsplit, hds, .inr ⟨_, rfl, .inl ho⟩⟩
          · exact ht ht'
        have : l'.signature.length = 0 := by rw [hend, List.length_nil]
        refine ⟨by omega, ?_, hend⟩
        rw [hargs]
        omega
  | kCompleted =>
      simp only [hst] at hcons
      exact absurd hcons hne

theorem progress_of_not_stalls {s : StringView} (hroom : s.length ≤ kMaxSize) (hs : ¬ Stalls s) :
    Progress .unchecked (SignatureLoop.start s : SignatureLoop kMaxSize) ∧
      Terminates .unchecked (SignatureLoop.start s : SignatureLoop kMaxSize) := by
  have hstart : (SignatureLoop.start s : SignatureLoop kMaxSize).Room ∧
      Consumed s (SignatureLoop.start s : SignatureLoop kMaxSize) := by
    refine ⟨?_, rfl⟩
    simpa [SignatureLoop.Room, SignatureLoop.start] using hroom
  have hi : ∀ l l' : SignatureLoop kMaxSize, (l.Room ∧ Consumed s l) → Iterates .unchecked l l' →
      l'.signature.length < l.signature.length ∧ l'.Room ∧ Consumed s l' := by
    rintro l l' hl ⟨hne, he⟩
    rcases consumed_step hs hl hne with he' | ⟨l₁, he', h⟩
    · rw [he] at he'
      cases he'
    · rw [he] at he'
      rw [Option.some.inj (Except.ok.inj he')]
      exact h
  refine ⟨progress_of_invariant hi hstart, terminates_of_invariant hi ?_ hstart⟩
  intro l hl hne
  rcases consumed_step hs hl hne with he | ⟨l₁, he, _⟩
  · rw [he]
    simp
  · rw [he]
    simp

end stalls

theorem BuildConfig.eq_unchecked {cfg : BuildConfig} (h : ¬ cfg.Checks) : cfg = .unchecked := by
  obtain ⟨n, d⟩ := cfg
  cases n <;> cases d <;> first | rfl | exact absurd (by decide) h

/-- **The loop makes progress and ends** on every input in every configuration, except on the inputs
that stall it when assertions are disabled and parse failures are not returned. -/
theorem loop_progress_iff (cfg : BuildConfig) (s : StringView) :
    (Progress cfg (SignatureLoop.start s : SignatureLoop (s.length + 1)) ∧
      Terminates cfg (SignatureLoop.start s : SignatureLoop (s.length + 1))) ↔
    cfg.Checks ∨ ¬ Stalls s := by
  by_cases hc : cfg.Checks
  · refine iff_of_true (progress_of_checks hc ?_) (.inl hc)
    simp [SignatureLoop.Room, SignatureLoop.start]
  · obtain rfl := BuildConfig.eq_unchecked hc
    constructor
    · rintro ⟨hp, _⟩
      refine .inr fun hs => ?_
      exact not_progress_of_stalls (Nat.le_succ _) hs hp
    · rintro (h | h)
      · exact absurd h hc
      · exact progress_of_not_stalls (Nat.le_succ _) h

/-- `()VI` with assertions disabled: the `I` is never consumed, and no number of rounds is enough. -/
theorem leftover_never_ends :
    ¬ Progress .unchecked (SignatureLoop.start "()VI".toList : SignatureLoop 5) ∧
    ¬ Terminates .unchecked (SignatureLoop.start "()VI".toList : SignatureLoop 5) := by
  constructor
  · apply not_progress_of_stalls (by decide)
    exact ⟨'(', [], ")VI".toList, rfl, by simp, .inr ⟨"VI".toList, rfl,
      .inr ⟨['V'], ['I'], .letter (by decide), by simp, rfl⟩⟩⟩
  · rintro ⟨n, h⟩
    apply h
    have hrest := @signatureLoop_unchecked_completed 5 ⟨['I'], .empty, ⟨['V']⟩, .kCompleted⟩ rfl
      (List.cons_ne_nil _ _)
    match n with
    | 0 | 1 | 2 => rfl
    | n + 3 => exact hrest n

end NativeHelper
