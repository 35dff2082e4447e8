import NativeHelper.Constexpr
import NativeHelper.PrefixCode

/-! # The signature parser

`parseSingleTypeDescriptor` splits one type descriptor off a view and `parseSignatureAsList`
runs its four states over a whole method signature.  Both are the functions of
`signature_checker.h`, macros included, in every build configuration; early returns of
`nullopt` are `.ok none`.

`readDescriptor` and `readSignature` are the same computations without the machinery: no
faults, no indices, no states.  In a configuration that notices parse failures the functions
of the header agree with them, and stop nowhere else (`parseSingleTypeDescriptor_eq`,
`parseSignatureAsList_eq`). -/

namespace NativeHelper

/-- The characters `IsValidJniDescriptorStart` accepts. -/
def kValidJniStarts : List Char :=
  ['V', 'Z', 'B', 'C', 'S', 'I', 'J', 'F', 'D', 'L', '[', '(', ')']

def isValidJniDescriptorStart (shorty : Char) : Bool := kValidJniStarts.contains shorty

/-- `JniDescriptorNode`: the "long" form of one descriptor, empty if default-constructed. -/
@[ext] structure JniDescriptorNode where
  longy : StringView
deriving DecidableEq, Repr

/-- The constructor of `JniDescriptorNode` from a view. -/
def jniDescriptorNode (cfg : BuildConfig) (longy : StringView) : Eval JniDescriptorNode := do
  xAssert cfg (!longy.isEmpty)
  .ok ⟨longy⟩

theorem jniDescriptorNode_eq (cfg : BuildConfig) {longy : StringView} (h : longy ≠ []) :
    jniDescriptorNode cfg longy = .ok ⟨longy⟩ := by
  cases longy with
  | nil => exact absurd rfl h
  | cons c t => simp [jniDescriptorNode]

theorem jniDescriptorNode_returns_iff {cfg : BuildConfig} (hd : cfg.disableAsserts = false)
    (longy : StringView) : (∃ node, jniDescriptorNode cfg longy = .ok node) ↔ longy ≠ [] := by
  cases longy <;> simp [jniDescriptorNode, xAssert, hd]

structure ParseTypeDescriptorResult where
  /-- A single argument descriptor. -/
  token : StringView
  /-- What is left to be parsed. -/
  remainder : StringView
deriving DecidableEq, Repr

namespace ParseTypeDescriptorResult
variable (cfg : BuildConfig) (res : ParseTypeDescriptorResult)

def hasToken : Bool := 0 < res.token.length

def asNode : Eval JniDescriptorNode := do
  xAssert cfg res.hasToken
  jniDescriptorNode cfg res.token

theorem asNode_returns_iff {cfg : BuildConfig} (hd : cfg.disableAsserts = false) :
    (∃ node, res.asNode cfg = .ok node) ↔ res.token ≠ [] := by
  obtain ⟨token, remainder⟩ := res
  cases token <;> simp [asNode, hasToken, jniDescriptorNode, xAssert, hd]

end ParseTypeDescriptorResult

/-! ### One type descriptor -/

/-- The states of `ParseSingleTypeDescriptor`. -/
inductive TypeDescriptorState where
  | kSingleCharacter
  | kArray
  | kObject
deriving DecidableEq, Repr

section single
variable (cfg : BuildConfig)

/-- The first `switch`: the state and the token the first character `c` leads to. -/
def parseFirstCharacter (singleType : StringView) (c : Char) (allowVoid : Bool)
    (k : TypeDescriptorState → StringView → Eval (Option ParseTypeDescriptorResult)) :
    Eval (Option ParseTypeDescriptorResult) :=
  let singleCharacter := do k .kSingleCharacter (← substr cfg singleType 0 1)
  match c with
  | '!' => parseAssert cfg false (k .kSingleCharacter [])
  | 'V' => if allowVoid then singleCharacter else parseAssert cfg false singleCharacter
  | 'Z' | 'B' | 'C' | 'S' | 'I' | 'J' | 'F' | 'D' => singleCharacter
  | 'L' => k .kObject []
  | '[' => k .kArray []
  | _ => parseFailure cfg (.ok none)

/-- The loop over the class name, `n` indices from `i` on: `k` gets the length up to and
including the first `;`. -/
def scanClassName (singleType : StringView)
    (k : Option ℕ → Eval (Option ParseTypeDescriptorResult)) :
    ℕ → ℕ → Eval (Option ParseTypeDescriptorResult)
  | 0, _ => k none
  | n + 1, i => do
      let c ← charAt cfg singleType i
      -- `break` leaves the inner `switch` only, so the test for `;` follows it
      let next := if c = ';' then k (some (i + 1)) else scanClassName singleType k n (i + 1)
      if c = ')' ∨ c = '(' ∨ c = '[' then parseFailure cfg next else next

/-- `case kObject`. -/
def parseObject (singleType : StringView) : Eval (Option ParseTypeDescriptorResult) :=
  scanClassName cfg singleType (fun foundSemicolon =>
    parseAssert cfg foundSemicolon.isSome do
      let semicolonLen := foundSemicolon.getD 0
      let token ← substr cfg singleType 0 semicolonLen
      let remainder ← substrFrom cfg singleType semicolonLen
      let classNameIsEmpty : Bool := token.length ≤ 2
      parseAssert cfg (!classNameIsEmpty) (.ok (some ⟨token, remainder⟩)))
    singleType.length 0

/-- `ParseSingleTypeDescriptor`.  On `c :: remainder` the reads `single_type[0]` and
`single_type.substr(1)` give `c` and `remainder`. -/
def parseSingleTypeDescriptor : StringView → Bool → Eval (Option ParseTypeDescriptorResult)
  | [], _ => .ok (some ⟨[], []⟩)
  | c :: remainder, allowVoid =>
      let singleType := c :: remainder
      parseAssert cfg (isValidJniDescriptorStart c) <|
        parseFirstCharacter cfg singleType c allowVoid fun state token =>
          match state with
          | .kSingleCharacter => .ok (some ⟨token, remainder⟩)
          | .kArray => do
              let maybeRes ← parseSingleTypeDescriptor remainder false
              parseAssert cfg maybeRes.isSome do
                let res ← optionalValue cfg maybeRes
                parseAssert cfg res.hasToken do
                  let token ← substr cfg singleType 0 (res.token.length + 1)
                  .ok (some ⟨token, res.remainder⟩)
          | .kObject => parseObject cfg singleType

end single

/-! ### A whole signature -/

/-- The states of `ParseSignatureAsList`. -/
inductive SignatureState where
  | kInitial
  | kParsingParameters
  | kParsingReturnType
  | kCompleted
deriving DecidableEq, Repr

/-- `JniSignatureDescriptor<kMaxSize>`. -/
abbrev JniSignatureDescriptor (kMaxSize : ℕ) :=
  FunctionSignatureDescriptor JniDescriptorNode kMaxSize

/-- The local variables of `ParseSignatureAsList`. -/
structure SignatureLoop (kMaxSize : ℕ) where
  signature : StringView
  jniDescNodeList : ConstexprVector JniDescriptorNode kMaxSize
  returnJniDesc : JniDescriptorNode
  state : SignatureState

section signature
variable (cfg : BuildConfig) {kMaxSize : ℕ}

/-- The body of the `while` loop. -/
def signatureStep (l : SignatureLoop kMaxSize) : Eval (Option (SignatureLoop kMaxSize)) :=
  match l.state with
  | .kInitial => do
      let c ← charAt cfg l.signature 0
      parseAssert cfg (c = '(') do
        let signature ← substrFrom cfg l.signature 1
        .ok (some { l with state := .kParsingParameters, signature })
  | .kParsingParameters => do
      let c ← charAt cfg l.signature 0
      if c = ')' then do
        let signature ← substrFrom cfg l.signature 1
        .ok (some { l with state := .kParsingReturnType, signature })
      else do
        let res ← parseSingleTypeDescriptor cfg l.signature false
        parseAssert cfg res.isSome do
          let node ← (← optionalValue cfg res).asNode cfg
          let jniDescNodeList ← l.jniDescNodeList.pushBack cfg node
          .ok (some { l with jniDescNodeList, signature := (← optionalValue cfg res).remainder })
  | .kParsingReturnType => do
      let res ← parseSingleTypeDescriptor cfg l.signature true
      parseAssert cfg res.isSome do
        let returnJniDesc ← (← optionalValue cfg res).asNode cfg
        .ok (some { l with
          returnJniDesc, signature := (← optionalValue cfg res).remainder, state := .kCompleted })
  | .kCompleted => parseFailure cfg (.ok (some l))

/-- `while (!signature.empty())`, for at most the given number of rounds. -/
def signatureLoop : ℕ → SignatureLoop kMaxSize → Eval (Option (SignatureLoop kMaxSize))
  | n, l =>
      if l.signature.isEmpty then .ok (some l) else
        match n with
        | 0 => .error .rounds
        | n + 1 => do
            match ← signatureStep cfg l with
            | none => .ok none
            | some l' => signatureLoop n l'

/-- The `switch` after the loop.  `kParsingReturnType` has no `break` and falls through. -/
def signatureEnd (l : SignatureLoop kMaxSize) : Eval (Option (JniSignatureDescriptor kMaxSize)) :=
  let done : Eval (Option (JniSignatureDescriptor kMaxSize)) :=
    .ok (some ⟨l.jniDescNodeList, l.returnJniDesc⟩)
  match l.state with
  | .kCompleted => done
  | .kParsingParameters => parseFailure cfg done
  | .kParsingReturnType => parseFailure cfg (parseFailure cfg do xAssert cfg false; done)
  | .kInitial => parseFailure cfg do xAssert cfg false; done

/-- `ParseSignatureAsList<kMaxSize>`; a round of the loop for every character is enough
unless some round consumes none. -/
def parseSignatureAsList (kMaxSize : ℕ) (signature : StringView) :
    Eval (Option (JniSignatureDescriptor kMaxSize)) := do
  match ← signatureLoop cfg signature.length ⟨signature, .empty, ⟨[]⟩, .kInitial⟩ with
  | none => .ok none
  | some l => signatureEnd cfg l

end signature

/-! ### The readers -/

/-- The letters of the primitive types. -/
def primitiveLetters : List Char := ['Z', 'B', 'C', 'S', 'I', 'J', 'F', 'D']

/-- The characters a class name may have. -/
def isClassNameChar (c : Char) : Bool := !(['(', ')', '[', ';'].contains c)

/-- Split off `L`, a class name and `;`, given what follows the `L`. -/
def readObject (s : StringView) : Option (StringView × StringView) :=
  match s.takeWhile isClassNameChar, s.dropWhile isClassNameChar with
  | c :: name, ';' :: r => some ('L' :: c :: name ++ [';'], r)
  | _, _ => none

/-- Split one type descriptor off the input. -/
def readDescriptor : Bool → StringView → Option (StringView × StringView)
  | _, [] => none
  | allowVoid, c :: s =>
      if c ∈ primitiveLetters ∨ (c = 'V' ∧ allowVoid = true) then some ([c], s)
      else if c = 'L' then readObject s
      else if c = '[' then (readDescriptor false s).map fun (w, r) => ('[' :: w, r)
      else none

/-- Read the argument descriptors and the return descriptor of a signature. -/
def readSignature : StringView → Option (List StringView × StringView)
  | '(' :: s =>
      (PrefixCode.readUntil (readDescriptor false) ')' s.length s).bind fun (args, s') =>
        match readDescriptor true s' with
        | some (ret, []) => some (args, ret)
        | _ => none
  | _ => none

end NativeHelper
