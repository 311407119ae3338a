import Mathlib.Data.List.TakeWhile
import QueueBoard.Arguments.Reader
import QueueBoard.Proofs.Basic
/-!
# Options given in front

How the reader goes through words one by one, and what it makes of an option that was given before all of them:
the reading is the same with that option in front, if the level is not given it a second time
(`readWords_after`).
-/

namespace QueueBoard.Arguments

variable {lookup : String → Option String} {l sub : Level} {p q : Progress} {s : Switch} {g : Given} {word : String}
  {words : List String} {r : Reading}

/-! ## Word by word -/

/-- A subcommand is read with all words after it. -/
theorem readWords_inner (hp : p.isWaiting = false) (h : l.find? word = some sub) :
    readWords lookup l p (word :: words) = do
      let reading ← readWords lookup sub {} words
      let own ← finish lookup l p true
      return { path := sub.name :: reading.path, levels := own :: reading.levels } := by
  rw [readWords.eq_def]
  dsimp only
  rw [hp, if_neg Bool.false_ne_true, h]

theorem find?_of_not_hasCommand (h : l.hasCommand word = false) : l.find? word = none := by
  rw [Level.hasCommand, Bool.or_eq_false_iff] at h
  exact Option.isNone_iff_eq_none.1 (Option.isSome_eq_false_iff.1 h.1)

/-- A long option is met. -/
theorem readWords_long {letter : Char} {body : List Char} (hp : p.isWaiting = false)
    (hcommand : l.hasCommand word = false) (hword : word.toList = '-' :: '-' :: letter :: body) :
    readWords lookup l p (word :: words) = (readLong l p (letter :: body)).bind (readWords lookup l · words) := by
  have hnone := find?_of_not_hasCommand hcommand
  rw [readWords.eq_def]
  dsimp only
  rw [hp, if_neg Bool.false_ne_true, hnone]
  dsimp only
  rw [hcommand, if_neg (by decide), hword]
  rfl

/-- The letters of short options are met. -/
theorem readWords_short {letter : Char} {body : List Char} (hp : p.isWaiting = false)
    (hcommand : l.hasCommand word = false) (hword : word.toList = '-' :: letter :: body) (hletter : letter ≠ '-') :
    readWords lookup l p (word :: words) = (readShort l p (letter :: body)).bind (readWords lookup l · words) := by
  have hnone := find?_of_not_hasCommand hcommand
  rw [readWords.eq_def]
  dsimp only
  rw [hp, if_neg Bool.false_ne_true, hnone]
  dsimp only
  rw [hcommand, if_neg (by decide), hword]
  split
  · simp_all
  · simp_all
  · rename_i heq
    cases heq
    rfl
  · simp_all

/-- A word without a dash is the value that is waited for. -/
theorem readWords_value {first : Char} {rest : List Char} (hp : p.isWaiting = true)
    (hword : word.toList = first :: rest) (hfirst : first ≠ '-') :
    readWords lookup l p (word :: words) = readWords lookup l (p.supply word) words := by
  rw [readWords.eq_def]
  dsimp only
  rw [hp, if_pos rfl]
  dsimp only
  rw [if_neg (by simp), hword]
  split
  · simp_all
  · simp_all
  · simp_all
  · rw [if_pos rfl]

/-- An option that wants a value waits for it once what was given before is settled. -/
theorem meet_none (hvalue : s.takes.wantsValue = true) (hsettle : p.settle = .ok q) :
    p.meet s none = .ok { q with pending := some (s, none) } := by
  rw [Progress.meet, hsettle, hvalue]
  rfl

section Valued

variable {value : String} {first : Char} {rest : List Char} (hp : p.isWaiting = false)
  (hcommand : l.hasCommand word = false) (hwants : s.takes.wantsValue = true) (hsettle : p.settle = .ok q)
  (hvalue : value.toList = first :: rest) (hfirst : first ≠ '-')
include hp hcommand hwants hsettle hvalue hfirst

/-- A short option takes the next word as its value. -/
theorem readWords_short_value {letter : Char} (hword : word.toList = ['-', letter]) (hletter : letter ≠ '-')
    (hs : l.short? letter = some s) : readWords lookup l p (word :: value :: words) =
      readWords lookup l { q with pending := some (s, some value) } words := by
  have hshort : readShort l p [letter] = .ok { q with pending := some (s, none) } := by
    simp only [readShort, hs, if_pos hwants, meet_none hwants hsettle]
  rw [readWords_short hp hcommand hword hletter, hshort]
  exact readWords_value rfl hvalue hfirst

/-- So does a long one. -/
theorem readWords_long_value {letter : Char} {name : List Char} (hword : word.toList = '-' :: '-' :: letter :: name)
    (hname : ∀ c ∈ letter :: name, c ≠ '=') (hs : l.long? (String.ofList (letter :: name)) = some s) :
    readWords lookup l p (word :: value :: words) =
      readWords lookup l { q with pending := some (s, some value) } words := by
  have htake : (letter :: name).takeWhile (· != '=') = letter :: name :=
    List.takeWhile_eq_self_iff.2 fun c hc => bne_iff_ne.2 (hname c hc)
  have hdrop : (letter :: name).dropWhile (· != '=') = [] :=
    List.dropWhile_eq_nil_iff.2 fun c hc => bne_iff_ne.2 (hname c hc)
  have hlong : readLong l p (letter :: name) = .ok { q with pending := some (s, none) } := by
    simp only [readLong, htake, hdrop, hs, meet_none hwants hsettle]
  rw [readWords_long hp hcommand hword, hlong]
  exact readWords_value rfl hvalue hfirst

end Valued

/-! ## One level -/

namespace Progress

/-- A level that was given an option before all else. -/
def after (g : Given) (p : Progress) : Progress := { p with given := g :: p.given }

@[simp] theorem has_after (name : String) : (p.after g).has name = (g.name == name || p.has name) := rfl

@[simp] theorem has_add (name value other : String) (origin : Origin) :
    (p.add name value origin).has other = (p.has other || name == other) := by
  rw [add]
  by_cases hname : p.has name = true
  · rw [if_pos hname]
    have hsame : ((·.name == other) ∘ fun given : Given =>
        if given.name == name then { given with values := given.values ++ [value] } else given) =
          (·.name == other) := by
      funext given
      dsimp only [Function.comp]
      split <;> rfl
    rw [has, List.any_map, hsame, ← has]
    by_cases hother : name = other
    · rw [← hother, hname, Bool.true_or]
    · rw [beq_false_of_ne hother, Bool.or_false]
  · rw [if_neg hname]
    simp [has]

theorem add_after (name value : String) (origin : Origin) (h : name ≠ g.name) :
    (p.after g).add name value origin = (p.add name value origin).after g := by
  have hne : (g.name == name) = false := beq_false_of_ne h.symm
  rw [add, add, has_after, hne, Bool.false_or]
  split
  · simp [after, h.symm]
  · rfl

/-- Whether an option is kept, and with what value, depends on nothing but whether it was given before. -/
theorem keep_ok {value? : Option String} {origin : Origin} (h : p.keep s value? origin = .ok q) :
    ∃ value, q = p.add s.name value origin ∧ ∀ p' : Progress, p'.has s.name = p.has s.name →
      p'.keep s value? origin = .ok (p'.add s.name value origin) := by
  unfold keep at h ⊢
  split at h
  · cases h
  · cases h
  · split at h
    · cases h
    · rename_i hnew
      cases h
      exact ⟨"", rfl, fun p' hp' => by rw [hp', if_neg hnew]⟩
  · cases h
    exact ⟨"", rfl, fun _ _ => rfl⟩
  · cases h
  · cases h
  · rename_i kind value _
    split at h
    · cases h
    · rename_i hnew
      split at h
      · cases h
      · rename_i hfault
        cases h
        exact ⟨value, rfl, fun p' hp' => by rw [hp', if_neg hnew]⟩
  · rename_i kind value _
    split at h
    · cases h
    · rename_i hfault
      cases h
      exact ⟨value, rfl, fun _ _ => rfl⟩

theorem ne_of_keep {value? : Option String} {origin : Origin} {name : String} (h : p.keep s value? origin = .ok q)
    (hq : q.has name = false) : s.name ≠ name := by
  obtain ⟨value, rfl, -⟩ := keep_ok h
  rw [has_add, Bool.or_eq_false_iff] at hq
  exact ne_of_beq_false hq.2

/-- A step on a level that goes the same way if an option was given before all else, unless it gives that option
again. -/
def GoesAlike (g : Given) (step : Progress → Except Fault Progress) : Prop :=
  ∀ p q, step p = .ok q → q.has g.name = false → p.has g.name = false ∧ step (p.after g) = .ok (q.after g)

theorem GoesAlike.bind {first next : Progress → Except Fault Progress} (h : GoesAlike g first)
    (hnext : GoesAlike g next) : GoesAlike g fun p => first p >>= next := by
  intro p q hstep hq
  obtain ⟨middle, hfirst, hlast⟩ := bind_eq_ok hstep
  obtain ⟨hmiddle, hlast⟩ := hnext middle q hlast hq
  obtain ⟨hp, hfirst⟩ := h p middle hfirst hmiddle
  refine ⟨hp, ?_⟩
  show (first (p.after g) >>= next) = _
  rw [hfirst]
  exact hlast

theorem goesAlike_foldlM {β : Type} {step : Progress → β → Except Fault Progress} (h : ∀ b, GoesAlike g (step · b))
    (bs : List β) : GoesAlike g fun p => bs.foldlM step p := by
  induction bs with
  | nil =>
    intro p q hstep hq
    cases hstep
    exact ⟨hq, rfl⟩
  | cons b bs ih =>
    simp only [List.foldlM_cons]
    exact (h b).bind ih

theorem goesAlike_keep (s : Switch) (value? : Option String) (origin : Origin) :
    GoesAlike g (·.keep s value? origin) := by
  intro p q hkeep hq
  have hne := ne_of_keep hkeep hq
  obtain ⟨value, rfl, hsame⟩ := keep_ok hkeep
  rw [has_add, Bool.or_eq_false_iff] at hq
  refine ⟨hq.1, ?_⟩
  rw [← add_after _ _ _ hne]
  exact hsame _ (by rw [has_after, beq_false_of_ne hne.symm, Bool.false_or])

theorem goesAlike_settle : GoesAlike g settle := by
  intro p q hsettle hq
  cases hpending : p.pending with
  | none =>
    rw [settle, hpending] at hsettle
    cases hsettle
    exact ⟨hq, by rw [settle, show (p.after g).pending = none from hpending]⟩
  | some last =>
    obtain ⟨s, value?⟩ := last
    rw [settle, hpending] at hsettle
    obtain ⟨hp, hkeep⟩ := goesAlike_keep s value? .commandLine _ q hsettle hq
    exact ⟨hp, by rw [settle, show (p.after g).pending = some (s, value?) from hpending]; exact hkeep⟩

theorem goesAlike_supply (word : String) : GoesAlike g fun p => .ok (p.supply word) := by
  intro p q hsupply hq
  cases hsupply
  obtain ⟨given, _ | ⟨s, _ | value⟩⟩ := p <;> exact ⟨hq, rfl⟩

theorem goesAlike_meet (s : Switch) (attached : Option String) : GoesAlike g (·.meet s attached) := by
  refine goesAlike_settle.bind fun p q hmeet hq => ?_
  by_cases hwait : (s.takes.wantsValue && attached.isNone) = true
  · simp only [hwait, if_true] at hmeet ⊢
    cases hmeet
    exact ⟨hq, rfl⟩
  · simp only [if_neg hwait] at hmeet ⊢
    exact goesAlike_keep s attached .commandLine p q hmeet hq

theorem goesAlike_fromEnvironment (lookup : String → Option String) (switches : List Switch) :
    GoesAlike g (·.fromEnvironment lookup switches) := by
  refine goesAlike_foldlM (fun s p q hstep hq => ?_) switches
  cases hvalue : s.envName.bind lookup with
  | none =>
    rw [hvalue] at hstep
    cases hstep
    exact ⟨hq, rfl⟩
  | some value =>
    rw [hvalue] at hstep
    dsimp only at hstep ⊢
    by_cases hp : p.has s.name = true
    · rw [if_pos hp] at hstep
      cases hstep
      exact ⟨hq, if_pos (by rw [has_after, hp, Bool.or_true])⟩
    · rw [if_neg hp] at hstep
      obtain ⟨hnone, hkeep⟩ := goesAlike_keep s (some value) .environment p q hstep hq
      have hne : (g.name == s.name) = false := beq_false_of_ne (ne_of_keep hstep hq).symm
      exact ⟨hnone, (if_neg (by rwa [has_after, hne, Bool.false_or])).trans hkeep⟩

end Progress

open Progress

theorem goesAlike_readLong (body : List Char) : GoesAlike g (readLong l · body) := by
  intro p q hread hq
  unfold readLong at hread ⊢
  dsimp only at hread ⊢
  split at hread
  · cases hread
  · exact goesAlike_meet _ none p q hread hq
  · split at hread
    · rename_i hvalue
      rw [if_pos hvalue]
      exact goesAlike_meet _ (some _) p q hread hq
    · cases hread

theorem goesAlike_readShort (letters : List Char) : GoesAlike g (readShort l · letters) := by
  induction letters with
  | nil =>
    intro p q hread hq
    cases hread
    exact ⟨hq, rfl⟩
  | cons letter rest ih =>
    intro p q hread hq
    unfold readShort at hread ⊢
    dsimp only at hread ⊢
    split at hread
    · cases hread
    · rename_i s _
      by_cases hvalue : s.takes.wantsValue = true
      · rw [if_pos hvalue] at hread ⊢
        split at hread
        · exact goesAlike_meet _ none p q hread hq
        · exact goesAlike_meet _ (some _) p q hread hq
        · exact goesAlike_meet _ (some _) p q hread hq
      · rw [if_neg hvalue] at hread ⊢
        exact (goesAlike_meet _ none).bind ih p q hread hq

/-- The options of a level, with one more in front. -/
theorem finish_after {hasInner : Bool} {own : List Given} (h : finish lookup l p hasInner = .ok own)
    (hown : own.any (·.name == g.name) = false) :
    p.has g.name = false ∧ finish lookup l (p.after g) hasInner = .ok (g :: own) := by
  obtain ⟨settled, hsettle, h⟩ := bind_eq_ok h
  obtain ⟨full, hfull, h⟩ := bind_eq_ok h
  split at h
  · cases h
  · rename_i henough
    cases h
    obtain ⟨hsettled, hfull'⟩ := goesAlike_fromEnvironment lookup l.switches settled full hfull hown
    obtain ⟨hp, hsettle'⟩ := goesAlike_settle p settled hsettle hsettled
    refine ⟨hp, ?_⟩
    simp only [finish, hsettle', hfull', if_neg henough, bind, Except.bind]
    rfl

/-- A way to read all words from a level on that goes the same way if an option was given before all else: the
level has that option in front of its own, unless it is given it again. -/
def GoesAlikeThrough (g : Given) (reading : Progress → Except Fault Reading) : Prop :=
  ∀ p r, reading p = .ok r → ∃ own inner, r.levels = own :: inner ∧ (own.any (·.name == g.name) = false →
    p.has g.name = false ∧ reading (p.after g) = .ok { r with levels := (g :: own) :: inner })

theorem Progress.GoesAlike.through {step : Progress → Except Fault Progress} {reading : Progress → Except Fault Reading}
    (h : GoesAlike g step) (hreading : GoesAlikeThrough g reading) :
    GoesAlikeThrough g fun p => step p >>= reading := by
  intro p r hr
  obtain ⟨q, hstep, hr⟩ := bind_eq_ok hr
  obtain ⟨own, inner, hlevels, halike⟩ := hreading q r hr
  refine ⟨own, inner, hlevels, fun hown => ?_⟩
  obtain ⟨hq, hr⟩ := halike hown
  obtain ⟨hp, hstep⟩ := h p q hstep hq
  refine ⟨hp, ?_⟩
  show (step (p.after g) >>= reading) = _
  rw [hstep]
  exact hr

/-- **An option given before all words is read before all that the level has,** and nothing else changes, unless
the level is given it a second time. -/
theorem readWords_after (words : List String) : GoesAlikeThrough g (readWords lookup l · words) := by
  -- by induction on the words; what the level has in the end tells that no step before gave the option
  induction words with
  | nil =>
    intro p r h
    dsimp only at h ⊢
    rw [readWords] at h ⊢
    obtain ⟨own, hfinish, h⟩ := bind_eq_ok h
    cases h
    refine ⟨own, [], rfl, fun hown => ?_⟩
    obtain ⟨hp, hfinish'⟩ := finish_after hfinish hown
    exact ⟨hp, by rw [hfinish']; rfl⟩
  | cons word rest ih =>
    intro p r h
    have hwaiting : (p.after g).isWaiting = p.isWaiting := rfl
    dsimp only at h ⊢
    rw [readWords.eq_def] at h ⊢
    dsimp only at h ⊢
    rw [hwaiting]
    split at h
    · -- a subcommand: its words do not see what the level above was given
      obtain ⟨reading, hreading, h⟩ := bind_eq_ok h
      obtain ⟨own, hfinish, h⟩ := bind_eq_ok h
      cases h
      refine ⟨own, reading.levels, rfl, fun hown => ?_⟩
      obtain ⟨hp, hfinish'⟩ := finish_after hfinish hown
      exact ⟨hp, by rw [hreading, hfinish']; rfl⟩
    · by_cases hhelp : (!p.isWaiting && l.hasCommand word) = true
      · rw [if_pos hhelp] at h
        cases h
      · rw [if_neg hhelp] at h ⊢
        split at h
        · split at h
          · exact ih p r h
          · cases h
        · exact (goesAlike_readLong _).through ih p r h
        · exact (goesAlike_readShort _).through ih p r h
        · by_cases hvalue : p.isWaiting = true
          · rw [if_pos hvalue] at h ⊢
            exact (goesAlike_supply word).through ih p r h
          · rw [if_neg hvalue] at h
            cases h

end QueueBoard.Arguments
