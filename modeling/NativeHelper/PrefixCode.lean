import Mathlib.Computability.Language
import Mathlib.Data.List.Basic
import Mathlib.Data.Set.Defs

/-! # Prefix codes

A set of words over an alphabet is a *prefix code* when no word of it is a proper prefix of
another.  Words of a prefix code need no separator: the first word of a concatenation is
determined by the concatenation (`PrefixFree.append_inj`).

`Reads L p` says that the partial function `p` splits off the leading word of `L` exactly
when there is one.  A language with a reader is a prefix code (`Reads.prefixFree`).

`Delimited L stop s ts r` says that `s` is a sequence `ts` of words of `L`, the symbol `stop`
and a rest `r`.  When no word of `L` is empty or begins with `stop` the decomposition is
unique (`Delimited.unique`) and is computed by reading words until `stop` is in front
(`readUntil_iff`).

In a code whose words are a symbol without a mark and others with it, a sequence of words that is
cut at some place is a sequence of words if and only if no marked symbol stands behind the cut
(`take_mem_kstar_iff`).

Words that stand between separators need not be a prefix code: it is enough that they are known
from what is in front of the next separator (`Ended`, `Ended.intercalate_inj`). -/

namespace PrefixCode

variable {α : Type*} {L : Set (List α)}

/-- No word of `L` is a proper prefix of another word of `L`. -/
def PrefixFree (L : Set (List α)) : Prop := ∀ u ∈ L, ∀ v ∈ L, u <+: v → u = v

/-- A code is prefix-free if the first symbol of a word says how long it is. -/
theorem prefixFree_of_length {len : α → ℕ} (h : ∀ w ∈ L, ∃ c t, w = c :: t ∧ w.length = len c) :
    PrefixFree L := by
  intro u hu v hv huv
  obtain ⟨c, s, rfl, hc⟩ := h u hu
  obtain ⟨d, t, rfl, hd⟩ := h v hv
  obtain ⟨rfl, _⟩ := List.cons_prefix_cons.mp huv
  exact huv.eq_of_length (hc.trans hd.symm)

theorem PrefixFree.append_inj (hL : PrefixFree L) {u v s t : List α} (hu : u ∈ L) (hv : v ∈ L)
    (h : u ++ s = v ++ t) : u = v ∧ s = t := by
  have e : u = v := by
    rcases List.prefix_or_prefix_of_prefix (List.prefix_append u s)
      (h ▸ List.prefix_append v t) with huv | hvu
    · exact hL u hu v hv huv
    · exact (hL v hv u hu hvu).symm
  subst e
  exact ⟨rfl, List.append_cancel_left h⟩

/-! ### Readers -/

/-- `p` splits off the leading word of `L` exactly when the input has one. -/
def Reads (L : Set (List α)) (p : List α → Option (List α × List α)) : Prop :=
  ∀ s w r, p s = some (w, r) ↔ w ∈ L ∧ s = w ++ r

section reads
variable {p : List α → Option (List α × List α)}

theorem Reads.append (hp : Reads L p) {w : List α} (hw : w ∈ L) (r : List α) :
    p (w ++ r) = some (w, r) := (hp _ _ _).mpr ⟨hw, rfl⟩

theorem Reads.eq_none_iff (hp : Reads L p) {s : List α} : p s = none ↔ ∀ w ∈ L, ¬ w <+: s := by
  constructor
  · rintro h w hw ⟨r, rfl⟩
    rw [hp.append hw r] at h
    cases h
  · intro h
    cases hs : p s with
    | none => rfl
    | some q =>
        obtain ⟨hw, e⟩ := (hp s q.1 q.2).mp hs
        exact absurd ⟨q.2, e.symm⟩ (h q.1 hw)

/-- A language with a reader is a prefix code: the reader cannot return two words. -/
theorem Reads.prefixFree (hp : Reads L p) : PrefixFree L := by
  rintro u hu v hv ⟨x, rfl⟩
  have h1 := hp.append hv []
  rw [List.append_nil, hp.append hu x] at h1
  simpa using congrArg (Option.map Prod.fst) h1

end reads

/-! ### Delimited sequences of words -/

/-- No word of `L` is empty or begins with `stop`. -/
def Avoids (L : Set (List α)) (stop : α) : Prop := ∀ w ∈ L, ∃ c t, w = c :: t ∧ c ≠ stop

/-- `s` is the words `ts` of `L`, then `stop`, then `r`. -/
def Delimited (L : Set (List α)) (stop : α) (s : List α) (ts : List (List α)) (r : List α) : Prop :=
  (∀ w ∈ ts, w ∈ L) ∧ s = ts.flatten ++ stop :: r

section delimited
variable {stop : α} {s r : List α} {ts : List (List α)}

theorem not_delimited_nil : ¬ Delimited L stop [] ts r := by
  rintro ⟨_, h⟩
  simp at h

/-- With `stop` in front the sequence is empty. -/
theorem delimited_stop (hs : Avoids L stop) :
    Delimited L stop (stop :: s) ts r ↔ ts = [] ∧ r = s := by
  constructor
  · rintro ⟨hts, h⟩
    cases ts with
    | nil => simpa using h.symm
    | cons w ts =>
        obtain ⟨c, t, rfl, hc⟩ := hs w (hts w List.mem_cons_self)
        simp only [List.flatten_cons, List.cons_append, List.cons.injEq] at h
        exact absurd h.1.symm hc
  · rintro ⟨rfl, rfl⟩
    exact ⟨by simp, rfl⟩

/-- With a word of `L` in front the sequence begins with that word. -/
theorem delimited_append (hL : PrefixFree L) (hs : Avoids L stop) {w : List α} (hw : w ∈ L) :
    Delimited L stop (w ++ s) ts r ↔ ∃ us, ts = w :: us ∧ Delimited L stop s us r := by
  constructor
  · rintro ⟨hts, h⟩
    cases ts with
    | nil =>
        obtain ⟨c, t, rfl, hc⟩ := hs w hw
        simp only [List.flatten_nil, List.nil_append, List.cons_append, List.cons.injEq] at h
        exact absurd h.1 hc
    | cons u us =>
        rw [List.flatten_cons, List.append_assoc] at h
        obtain ⟨rfl, h'⟩ := hL.append_inj hw (hts u List.mem_cons_self) h
        exact ⟨us, rfl, fun v hv => hts v (List.mem_cons_of_mem _ hv), h'⟩
  · rintro ⟨us, rfl, hus, rfl⟩
    refine ⟨?_, by simp⟩
    rintro v (_ | ⟨_, hv⟩)
    · exact hw
    · exact hus v hv

/-- Without `stop` or a word of `L` in front there is no decomposition. -/
theorem not_delimited {c : α} (hc : c ≠ stop) (h : ∀ w ∈ L, ¬ w <+: c :: s) :
    ¬ Delimited L stop (c :: s) ts r := by
  rintro ⟨hts, e⟩
  cases ts with
  | nil =>
      simp only [List.flatten_nil, List.nil_append, List.cons.injEq] at e
      exact hc e.1
  | cons w us =>
      rw [List.flatten_cons, List.append_assoc] at e
      exact h w (hts w List.mem_cons_self) ⟨_, e.symm⟩

theorem Delimited.unique (hL : PrefixFree L) (hs : Avoids L stop) {us : List (List α)}
    {q : List α} (h1 : Delimited L stop s ts r) (h2 : Delimited L stop s us q) :
    ts = us ∧ r = q := by
  induction ts generalizing s us with
  | nil =>
      rw [h1.2, List.flatten_nil, List.nil_append, delimited_stop hs] at h2
      exact ⟨h2.1.symm, h2.2.symm⟩
  | cons w ts ih =>
      have hw := h1.1 w List.mem_cons_self
      rw [h1.2, List.flatten_cons, List.append_assoc, delimited_append hL hs hw] at h2
      obtain ⟨us', rfl, h2'⟩ := h2
      obtain ⟨rfl, rfl⟩ := ih ⟨fun v hv => h1.1 v (List.mem_cons_of_mem _ hv), rfl⟩ h2'
      exact ⟨rfl, rfl⟩

end delimited

/-- Read words with `p` until `stop` is in front, at most `n` rounds. -/
def readUntil [DecidableEq α] (p : List α → Option (List α × List α)) (stop : α) :
    ℕ → List α → Option (List (List α) × List α)
  | 0, _ => none
  | _ + 1, [] => none
  | n + 1, c :: s =>
      if c = stop then some ([], s)
      else (p (c :: s)).bind fun (w, r) => (readUntil p stop n r).map fun (ts, q) => (w :: ts, q)

/-- **Reading until `stop` computes the unique decomposition**, with as many rounds as the
input has symbols. -/
theorem readUntil_iff [DecidableEq α] {p : List α → Option (List α × List α)} {stop : α}
    (hp : Reads L p) (hs : Avoids L stop) (n : ℕ) (s : List α) (hn : s.length ≤ n)
    (ts : List (List α)) (r : List α) :
    readUntil p stop n s = some (ts, r) ↔ Delimited L stop s ts r := by
  induction n generalizing s ts with
  | zero =>
      obtain rfl : s = [] := List.length_eq_zero_iff.mp (Nat.le_zero.mp hn)
      simp [readUntil, not_delimited_nil]
  | succ n ih =>
      cases s with
      | nil => simp [readUntil, not_delimited_nil]
      | cons c s =>
          by_cases hc : c = stop
          · subst hc
            rw [delimited_stop hs]
            simp [readUntil, eq_comm]
          · simp only [readUntil, if_neg hc]
            cases hps : p (c :: s) with
            | none => simpa using not_delimited hc (hp.eq_none_iff.mp hps)
            | some q =>
                obtain ⟨w, q⟩ := q
                obtain ⟨hw, e⟩ := (hp _ _ _).mp hps
                obtain ⟨d, t, rfl, _⟩ := hs w hw
                have hq : q.length ≤ n := by
                  have := congrArg List.length e
                  simp only [List.length_cons, List.length_append] at this hn
                  omega
                rw [e, delimited_append hp.prefixFree hs hw]
                simp only [Option.bind_some, Option.map_eq_some_iff, Prod.mk.injEq, Prod.exists]
                constructor
                · rintro ⟨us, q', hus, rfl, rfl⟩
                  exact ⟨us, rfl, (ih q hq us).mp hus⟩
                · rintro ⟨us, rfl, hus⟩
                  exact ⟨us, r, (ih q hq us).mpr hus, rfl, rfl⟩

/-! ### Sequences that are cut -/

section cut

open Computability

variable {L : Language α} {mark : α → Prop} {w s : List α}

/-- Every word of `L` is a symbol without the mark and others with it. -/
def Marks (L : Set (List α)) (mark : α → Prop) : Prop :=
  ∀ w ∈ L, ∃ c t, w = c :: t ∧ ¬ mark c ∧ ∀ d ∈ t, mark d

theorem mem_kstar_cases (hs : s ∈ L∗) : s = [] ∨ ∃ w ∈ L, ∃ r ∈ L∗, s = w ++ r := by
  obtain ⟨ws, rfl, hws⟩ := Language.mem_kstar.mp hs
  cases ws with
  | nil => exact .inl rfl
  | cons w ws =>
      have hr := Language.join_mem_kstar fun u hu => hws u (List.mem_cons_of_mem w hu)
      exact .inr ⟨w, hws w List.mem_cons_self, ws.flatten, hr, List.flatten_cons⟩

/-- A leading word is split off. -/
theorem PrefixFree.append_mem_kstar (hL : PrefixFree L) (hw : w ∈ L) : w ++ s ∈ L∗ ↔ s ∈ L∗ := by
  constructor
  · intro h
    rcases mem_kstar_cases h with h | ⟨u, hu, r, hr, h⟩
    · rw [(List.append_eq_nil_iff.mp h).2]
      exact Language.nil_mem_kstar L
    · rwa [(hL.append_inj hw hu h).2]
  · intro h
    obtain ⟨ws, rfl, hws⟩ := Language.mem_kstar.mp h
    refine Language.mem_kstar.mpr ⟨w :: ws, List.flatten_cons.symm, ?_⟩
    exact List.forall_mem_cons.mpr ⟨hw, hws⟩

/-- No sequence of words ends within its first word. -/
theorem PrefixFree.take_notMem_kstar (hL : PrefixFree L) (hw : w ∈ L) {n : ℕ} (h0 : n ≠ 0)
    (hn : n < w.length) : w.take n ∉ L∗ := by
  intro h
  rcases mem_kstar_cases h with h | ⟨u, hu, r, _, h⟩
  · rcases List.take_eq_nil_iff.mp h with h | rfl
    · exact h0 h
    · exact absurd hn (Nat.not_lt_zero n)
  · have hpre : u <+: w := ((List.prefix_append u r).trans (h ▸ List.prefix_rfl)).trans
      (List.take_prefix n w)
    have hlen := congrArg List.length h
    rw [hL u hu w hw hpre, List.length_take, List.length_append] at hlen
    omega

/-- **A cut between two words** is one in front of no marked symbol. -/
theorem take_mem_kstar_iff (hL : PrefixFree L) (hm : Marks L mark) (hs : s ∈ L∗) (n : ℕ) :
    s.take n ∈ L∗ ↔ ∀ c, s[n]? = some c → ¬ mark c := by
  obtain ⟨ws, rfl, hws⟩ := Language.mem_kstar.mp hs
  clear hs
  induction ws generalizing n with
  | nil => simpa using Language.nil_mem_kstar L
  | cons w ws ih =>
      obtain ⟨hw, hws⟩ := List.forall_mem_cons.mp hws
      rw [List.flatten_cons]
      rcases Nat.lt_or_ge n w.length with hn | hn
      · -- the cut is in front of `w` or within it
        rw [List.take_append_of_le_length (Nat.le_of_lt hn), List.getElem?_append_left hn]
        obtain ⟨c, t, rfl, hc, ht⟩ := hm w hw
        cases n with
        | zero =>
            refine iff_of_true (Language.nil_mem_kstar L) ?_
            rintro d ⟨⟩
            exact hc
        | succ n =>
            refine iff_of_false (hL.take_notMem_kstar hw (Nat.succ_ne_zero n) hn) fun h => ?_
            have hlt : n < t.length := Nat.lt_of_succ_lt_succ hn
            exact h t[n] (by simp [hlt]) (ht _ (List.getElem_mem hlt))
      · obtain ⟨m, rfl⟩ := Nat.exists_eq_add_of_le hn
        rw [List.take_length_add_append, hL.append_mem_kstar hw, ih m hws,
          List.getElem?_append_right hn, Nat.add_sub_cancel_left]

end cut

/-! ### Texts encoded symbol by symbol -/

section encode
variable {β : Type*}

/-- **A text is known from its encoding** by a prefix-free code without an empty word. -/
theorem PrefixFree.flatMap_injective {f : β → List α} (hL : PrefixFree (Set.range f))
    (hf : Function.Injective f) (hne : ∀ b, f b ≠ []) :
    Function.Injective fun text : List β => text.flatMap f := by
  intro text text' h
  simp only at h
  induction text generalizing text' with
  | nil =>
      cases text' with
      | nil => rfl
      | cons b text' => exact absurd (List.append_eq_nil_iff.mp h.symm).1 (hne b)
  | cons a text ih =>
      cases text' with
      | nil => exact absurd (List.append_eq_nil_iff.mp h).1 (hne a)
      | cons b text' =>
          obtain ⟨hab, hrest⟩ := hL.append_inj ⟨a, rfl⟩ ⟨b, rfl⟩ h
          rw [hf hab, ih hrest]

end encode

/-! ### Words between separators -/

section ended
variable {S : Set α} {sep stop : α}

/-- A word of `L` is known from a text in which a symbol of `S` follows it. -/
def Ended (L : Set (List α)) (S : Set α) : Prop :=
  ∀ w ∈ L, ∀ u ∈ L, ∀ a ∈ S, ∀ b ∈ S, ∀ r q, w ++ a :: r = u ++ b :: q → w = u ∧ a = b ∧ r = q

theorem PrefixFree.ended (hL : PrefixFree L) : Ended L S := by
  intro w hw u hu a _ b _ r q h
  obtain ⟨rfl, hrest⟩ := hL.append_inj hw hu h
  exact ⟨rfl, List.cons.inj hrest⟩

/-- Words without the symbols of `S`. -/
theorem ended_of_notMem (h : ∀ w ∈ L, ∀ c ∈ w, c ∉ S) : Ended L S := by
  intro w hw u hu a ha b hb r q he
  replace hw := h w hw
  replace hu := h u hu
  induction w generalizing u with
  | nil =>
      cases u with
      | nil => exact ⟨rfl, List.cons.inj he⟩
      | cons c u =>
          obtain ⟨rfl, _⟩ := List.cons.inj he
          exact absurd ha (hu a List.mem_cons_self)
  | cons c w ih =>
      cases u with
      | nil =>
          obtain ⟨rfl, _⟩ := List.cons.inj he
          exact absurd hb (hw c List.mem_cons_self)
      | cons d u =>
          obtain ⟨rfl, hrest⟩ := List.cons.inj he
          obtain ⟨rfl, hab⟩ := ih u hrest (fun d hd => hw d (List.mem_cons_of_mem c hd))
            fun d hd => hu d (List.mem_cons_of_mem c hd)
          exact ⟨rfl, hab⟩

/-- What stands behind the first word. -/
theorem intercalate_cons (sep stop : α) (w : List α) (ws : List (List α)) (r : List α) :
    ∃ a q, List.intercalate [sep] (w :: ws) ++ stop :: r = w ++ a :: q ∧
      (ws = [] ∧ a = stop ∧ q = r ∨
        ws ≠ [] ∧ a = sep ∧ q = List.intercalate [sep] ws ++ stop :: r) := by
  cases ws with
  | nil => exact ⟨stop, r, by rw [List.intercalate_singleton], .inl ⟨rfl, rfl, rfl⟩⟩
  | cons u ws =>
      refine ⟨sep, _, ?_, .inr ⟨List.cons_ne_nil u ws, rfl, rfl⟩⟩
      rw [List.intercalate_cons_cons, List.append_assoc, List.append_assoc, List.singleton_append]

/-- **Words between separators are known from the text.** -/
theorem Ended.intercalate_inj (hL : Ended L {sep, stop}) (hs : Avoids L stop) (hne : sep ≠ stop)
    {ws us : List (List α)} (hws : ∀ w ∈ ws, w ∈ L) (hus : ∀ u ∈ us, u ∈ L) {r q : List α}
    (h : List.intercalate [sep] ws ++ stop :: r = List.intercalate [sep] us ++ stop :: q) :
    ws = us ∧ r = q := by
  -- a word in front of a text that begins with `stop`
  have hstop : ∀ w ∈ L, ∀ a t t', w ++ a :: t ≠ stop :: t' := by
    intro w hw a t t' he
    obtain ⟨c, t, rfl, hc⟩ := hs w hw
    exact hc (List.cons.inj he).1
  induction ws generalizing us with
  | nil =>
      cases us with
      | nil => exact ⟨rfl, (List.cons.inj h).2⟩
      | cons u us =>
          obtain ⟨b, t, hu, _⟩ := intercalate_cons sep stop u us q
          exact absurd (hu.symm.trans h.symm) (hstop u (hus u List.mem_cons_self) b t r)
  | cons w ws ih =>
      obtain ⟨hw, hws'⟩ := List.forall_mem_cons.mp hws
      obtain ⟨a, t, ha, hat⟩ := intercalate_cons sep stop w ws r
      cases us with
      | nil => exact absurd (ha.symm.trans h) (hstop w hw a t q)
      | cons u us =>
          obtain ⟨hu, hus'⟩ := List.forall_mem_cons.mp hus
          obtain ⟨b, t', hb, hbt⟩ := intercalate_cons sep stop u us q
          have haS : a ∈ ({sep, stop} : Set α) := by
            rcases hat with ⟨_, rfl, _⟩ | ⟨_, rfl, _⟩ <;> simp
          have hbS : b ∈ ({sep, stop} : Set α) := by
            rcases hbt with ⟨_, rfl, _⟩ | ⟨_, rfl, _⟩ <;> simp
          obtain ⟨rfl, rfl, rfl⟩ := hL w hw u hu a haS b hbS t t' (ha.symm.trans (h.trans hb))
          rcases hat with ⟨rfl, rfl, rfl⟩ | ⟨_, rfl, rfl⟩
          · rcases hbt with ⟨rfl, _, rfl⟩ | ⟨_, he, _⟩
            · exact ⟨rfl, rfl⟩
            · exact absurd he.symm hne
          · rcases hbt with ⟨_, he, _⟩ | ⟨_, _, he⟩
            · exact absurd he hne
            · obtain ⟨rfl, hr⟩ := ih hws' hus' he
              exact ⟨rfl, hr⟩

end ended

end PrefixCode
