import ConnectionPool.Config.Properties
import Mathlib.Data.List.Induction
import Mathlib.Data.List.Infix

/-!
# How a properties text reads

The lines of a text that count are those that are neither blank nor comments. The first of them that
has no equals sign, or whose numeral is none, is the one complained of. If there is none, each
setting has the value of the last line with one of its keys, or its default; and the configuration
made of these values is judged as a whole, so a value that a later line replaces is not judged.
-/

set_option autoImplicit false

namespace ConnectionPool

namespace Text

/-- The text is a decimal numeral of this 64-bit number: a plus sign or none, then digits. -/
def IsNumeral (text : List Char) (n : Nat) : Prop :=
  ∃ sign digits, text = sign ++ digits ∧ (sign = [] ∨ sign = ['+']) ∧ digits ≠ [] ∧
    (∀ c ∈ digits, c.isDigit = true) ∧ n = Nat.ofDigitChars 10 digits 0 ∧ n < UInt64.size

theorem digit?_eq (c : Char) :
    digit? c = if c.isDigit then some (c.toNat - '0'.toNat) else none := by
  unfold digit?
  have h : ('0' ≤ c ∧ c ≤ '9') ↔ c.isDigit = true := by
    rw [Char.isDigit, Bool.and_eq_true, decide_eq_true_eq, decide_eq_true_eq]
    exact Iff.rfl
  simp only [h]

theorem digitsFrom?_eq (text : List Char) (n : Nat) :
    digitsFrom? n text =
      if text.all Char.isDigit then some (Nat.ofDigitChars 10 text n) else none := by
  induction text generalizing n with
  | nil => simp [digitsFrom?]
  | cons c rest ih =>
    rw [digitsFrom?, digit?_eq, List.all_cons, Nat.ofDigitChars_cons]
    cases hc : c.isDigit with
    | true => exact ih _
    | false => rfl

theorem natural?_eq_some_iff (text : List Char) (n : Nat) :
    natural? text = some n ↔
      text ≠ [] ∧ (∀ c ∈ text, c.isDigit = true) ∧ n = Nat.ofDigitChars 10 text 0 := by
  cases text with
  | nil => simp [natural?]
  | cons c rest =>
    rw [natural?, digitsFrom?_eq]
    · simp only [ne_eq, reduceCtorEq, not_false_eq_true, true_and, ← List.all_eq_true]
      split
      · rename_i h
        simp only [h, true_and, Option.some.injEq]
        exact eq_comm
      · rename_i h
        simp [h]
    · exact List.cons_ne_nil c rest

theorem word?_eq_some_iff (text : List Char) (w : UInt64) :
    word? text = some w ↔ IsNumeral text w.toNat := by
  have hdrop : ∃ sign, text = sign ++ dropPlus text ∧ (sign = [] ∨ sign = ['+']) := by
    unfold dropPlus
    split
    · exact ⟨['+'], rfl, Or.inr rfl⟩
    · exact ⟨[], rfl, Or.inl rfl⟩
  have hword (n : Nat) : (if n < UInt64.size then some (UInt64.ofNat n) else none) = some w ↔
      n = w.toNat := by
    constructor
    · intro h
      split at h
      · rename_i hn
        rw [← Option.some.inj h]
        exact (UInt64.toNat_ofNat_of_lt' hn).symm
      · exact absurd h (by simp)
    · rintro rfl
      rw [if_pos w.toNat_lt, UInt64.ofNat_toNat]
  simp only [word?, Option.bind_eq_some_iff, natural?_eq_some_iff, hword]
  constructor
  · rintro ⟨n, ⟨hne, hdigits, hn⟩, rfl⟩
    obtain ⟨sign, htext, hsign⟩ := hdrop
    exact ⟨sign, dropPlus text, htext, hsign, hne, hdigits, hn, w.toNat_lt⟩
  · rintro ⟨sign, digits, rfl, hsign, hne, hdigits, hn, -⟩
    have hd : dropPlus (sign ++ digits) = digits := by
      rcases hsign with rfl | rfl
      · -- a digit is no plus sign
        rw [List.nil_append]
        unfold dropPlus
        split
        · exact absurd (hdigits '+' List.mem_cons_self) (by decide)
        · rfl
      · rfl
    rw [hd]
    exact ⟨_, ⟨hne, hdigits, hn⟩, rfl⟩

theorem word?_of_isNumeral {text : List Char} {n : Nat} (h : IsNumeral text n) :
    word? text = some (UInt64.ofNat n) := by
  obtain ⟨-, -, -, -, -, -, -, hn⟩ := id h
  rw [word?_eq_some_iff, UInt64.toNat_ofNat_of_lt' hn]
  exact h

end Text

namespace Config

def Change.setting : Change → Setting
  | url _ => .url
  | username _ => .username
  | password _ => .password
  | maxActive _ => .maxActive
  | maxIdle _ => .maxIdle
  | maxCheckout _ => .maxCheckout
  | timeToWait _ => .timeToWait
  | tolerance _ => .tolerance
  | pingQuery _ => .pingQuery
  | pingEnabled _ => .pingEnabled
  | pingUnusedFor _ => .pingUnusedFor

/-- The value says what the change sets. -/
def Change.IsSaidBy (value : String) : Change → Prop
  | url text | username text | password text | pingQuery text => text = value
  | maxActive n | maxIdle n | tolerance n => Text.IsNumeral value.toList n.toNat
  | maxCheckout time | timeToWait time | pingUnusedFor time =>
    ∃ n, Text.IsNumeral value.toList n ∧ time = Nanos.ofMillis n
  | pingEnabled on => on = Setting.isYes value

def field (c : Config) : Setting → Change
  | .url => .url c.url
  | .username => .username c.username
  | .password => .password c.password
  | .maxActive => .maxActive c.maxActive
  | .maxIdle => .maxIdle c.maxIdle
  | .maxCheckout => .maxCheckout c.maxCheckout
  | .timeToWait => .timeToWait c.timeToWait
  | .tolerance => .tolerance c.tolerance
  | .pingQuery => .pingQuery c.pingQuery
  | .pingEnabled => .pingEnabled c.pingEnabled
  | .pingUnusedFor => .pingUnusedFor c.pingUnusedFor

@[simp] theorem setting_field (c : Config) (s : Setting) : (c.field s).setting = s := by
  cases s <;> rfl

theorem field_change (c : Config) (d : Change) (s : Setting) :
    (c.change d).field s = if d.setting = s then d else c.field s := by
  cases d <;> cases s <;> rfl

theorem field_injective (c c' : Config) (h : ∀ s, c.field s = c'.field s) : c = c' := by
  have hf := fun s => h s
  cases c
  cases c'
  simp only [Config.mk.injEq]
  exact ⟨Change.url.inj (hf .url), Change.username.inj (hf .username),
    Change.password.inj (hf .password), Change.maxActive.inj (hf .maxActive),
    Change.maxIdle.inj (hf .maxIdle), Change.maxCheckout.inj (hf .maxCheckout),
    Change.timeToWait.inj (hf .timeToWait), Change.tolerance.inj (hf .tolerance),
    Change.pingQuery.inj (hf .pingQuery), Change.pingEnabled.inj (hf .pingEnabled),
    Change.pingUnusedFor.inj (hf .pingUnusedFor)⟩

theorem changeAll_append (c : Config) (changes more : List Change) :
    c.changeAll (changes ++ more) = (c.changeAll changes).changeAll more :=
  List.foldl_append

end Config

namespace Setting

def isNumeric : Setting → Bool
  | maxActive | maxIdle | maxCheckout | timeToWait | tolerance | pingUnusedFor => true
  | url | username | password | pingQuery | pingEnabled => false

theorem ofKey?_eq_some_iff (key : String) (s : Setting) : ofKey? key = some s ↔ key ∈ s.keys := by
  have hall : ∀ s ∈ all, ∀ k ∈ s.keys, ofKey? k = some s := by decide
  have hmem : ∀ s, s ∈ all := fun s => by cases s <;> decide
  constructor
  · intro h
    simpa using List.find?_some h
  · exact hall s (hmem s) key

theorem count_cases (key value : String) :
    (∃ n, count key value = .ok n ∧ Text.IsNumeral value.toList n.toNat) ∨
      count key value = .error (.notNumber key value) ∧ ∀ n, ¬ Text.IsNumeral value.toList n := by
  unfold count
  cases h : Text.word? value.toList with
  | some n => exact Or.inl ⟨n, rfl, (Text.word?_eq_some_iff _ _).mp h⟩
  | none =>
    refine Or.inr ⟨rfl, fun n hn => ?_⟩
    rw [Text.word?_of_isNumeral hn] at h
    exact Option.some_ne_none _ h

theorem count_of_isNumeral (key : String) {value : String} {n : Nat}
    (h : Text.IsNumeral value.toList n) : count key value = .ok (UInt64.ofNat n) := by
  unfold count
  rw [Text.word?_of_isNumeral h]

theorem read_eq_error_iff (key value : String) (s : Setting) (error : ConfigError) :
    s.read key value = .error error ↔ s.isNumeric = true ∧
      (∀ n, ¬ Text.IsNumeral value.toList n) ∧ error = .notNumber key value := by
  cases s with
  | url | username | password | pingQuery | pingEnabled => simp [read, isNumeric]
  | maxActive | maxIdle | maxCheckout | timeToWait | tolerance | pingUnusedFor =>
    rcases count_cases key value with ⟨n, hn, hnum⟩ | ⟨he, hnone⟩
    · have hsome : ¬ ∀ n, ¬ Text.IsNumeral value.toList n := fun h => h _ hnum
      simp [read, millis, hn, hsome, Except.map]
    · simp only [read, millis, he, Except.map, isNumeric, Except.error.injEq, true_and]
      exact ⟨fun h => ⟨hnone, h.symm⟩, fun h => h.2.symm⟩

theorem read_eq_ok_iff (key value : String) (s : Setting) (d : Config.Change) :
    s.read key value = .ok d ↔ d.setting = s ∧ d.IsSaidBy value := by
  constructor
  · intro h
    cases s with
    | url | username | password | pingQuery | pingEnabled =>
      obtain rfl := Except.ok.inj h
      exact ⟨rfl, rfl⟩
    | maxActive | maxIdle | tolerance =>
      simp only [read] at h
      rcases count_cases key value with ⟨n, hn, hnum⟩ | ⟨he, -⟩
      · rw [hn] at h
        obtain rfl := Except.ok.inj h
        exact ⟨rfl, hnum⟩
      · rw [he] at h
        exact absurd h (by simp [Except.map])
    | maxCheckout | timeToWait | pingUnusedFor =>
      simp only [read, millis] at h
      rcases count_cases key value with ⟨n, hn, hnum⟩ | ⟨he, -⟩
      · rw [hn] at h
        obtain rfl := Except.ok.inj h
        exact ⟨rfl, n.toNat, hnum, rfl⟩
      · rw [he] at h
        exact absurd h (by simp [Except.map])
  · rintro ⟨rfl, h⟩
    cases d with
    | url text | username text | password text | pingQuery text | pingEnabled on =>
      obtain rfl := h
      rfl
    | maxActive n | maxIdle n | tolerance n =>
      simp only [Config.Change.setting, read, count_of_isNumeral key h, UInt64.ofNat_toNat]
      rfl
    | maxCheckout time | timeToWait time | pingUnusedFor time =>
      obtain ⟨n, hn, rfl⟩ := h
      obtain ⟨-, -, -, -, -, -, -, hlt⟩ := id hn
      simp only [Config.Change.setting, read, millis, count_of_isNumeral key hn, Except.map,
        UInt64.toNat_ofNat_of_lt' hlt]

end Setting

namespace Properties

def settingLines (text : String) : List (List Char) :=
  ((Text.lines text.toList).map Text.trim).filter fun line => !isSkipped line

def pair? (line : List Char) : Option (String × String) :=
  (splitPair? line).map fun pair => (normalKey pair.1, String.ofList (Text.trim pair.2))

theorem splitPair?_eq_none_iff (line : List Char) : splitPair? line = none ↔ '=' ∉ line := by
  induction line with
  | nil => simp [splitPair?]
  | cons c rest ih =>
    rw [splitPair?, List.mem_cons, not_or, ← ih]
    split
    · rename_i h
      simp [h]
    · rename_i h
      simp [Ne.symm h]

/-- The line cannot be taken, for this reason. -/
inductive Faulty : List Char → ConfigError → Prop
  | unpaired (line : List Char) (h : '=' ∉ line) : Faulty line (.notKeyValue (String.ofList line))
  | notNumeral (line : List Char) (key value : String) (s : Setting)
      (h : pair? line = some (key, value)) (hk : key ∈ s.keys) (hs : s.isNumeric = true)
      (hn : ∀ n, ¬ Text.IsNumeral value.toList n) : Faulty line (.notNumber key value)

def ask (line : List Char) : Except ConfigError (Option Config.Change) :=
  match pair? line with
  | none => .error (.notKeyValue (String.ofList line))
  | some (key, value) =>
    match Setting.ofKey? key with
    | none => .ok none
    | some setting => (setting.read key value).map some

theorem readLine_eq (line : List Char) :
    readLine line = if isSkipped (Text.trim line) then .ok none else ask (Text.trim line) := by
  unfold readLine ask pair?
  dsimp only
  congr 1
  cases splitPair? (Text.trim line) <;> rfl

theorem faulty_iff (line : List Char) (error : ConfigError) :
    Faulty line error ↔ ask line = .error error := by
  constructor
  · intro h
    cases h with
    | unpaired h => rw [ask, pair?, (splitPair?_eq_none_iff line).mpr h, Option.map_none]
    | notNumeral key value s h hk hs hn =>
      simp only [ask, h, (Setting.ofKey?_eq_some_iff key s).mpr hk]
      rw [(Setting.read_eq_error_iff key value s _).mpr ⟨hs, hn, rfl⟩]
      rfl
  · intro h
    unfold ask at h
    split at h
    · rename_i hp
      obtain rfl := Except.error.inj h
      exact .unpaired line ((splitPair?_eq_none_iff line).mp (Option.map_eq_none_iff.mp hp))
    · rename_i key value hp
      split at h
      · exact absurd h (by simp)
      · rename_i s hs
        cases hr : s.read key value with
        | ok d =>
          rw [hr] at h
          exact absurd h (by simp [Except.map])
        | error e =>
          rw [hr] at h
          obtain rfl := Except.error.inj h
          obtain ⟨hnum, hn, rfl⟩ := (Setting.read_eq_error_iff key value s e).mp hr
          exact .notNumeral line key value s hp ((Setting.ofKey?_eq_some_iff key s).mp hs) hnum hn

theorem faulty_unique {line : List Char} {error error' : ConfigError} (h : Faulty line error)
    (h' : Faulty line error') : error = error' := by
  rw [faulty_iff] at h h'
  exact Except.error.inj (h.symm.trans h')

def change? (line : List Char) : Option Config.Change := (ask line).toOption.join

theorem change?_cases (line : List Char) (h : ∀ error, ¬ Faulty line error) :
    ∃ key value, pair? line = some (key, value) ∧
      ((∀ s : Setting, key ∉ s.keys) ∧ change? line = none ∨
        ∃ d, key ∈ d.setting.keys ∧ d.IsSaidBy value ∧ change? line = some d) := by
  have hok (error : ConfigError) : ask line ≠ .error error := fun he =>
    h error ((faulty_iff line error).mpr he)
  unfold change?
  unfold ask at hok ⊢
  cases hp : pair? line with
  | none => exact absurd (by rw [hp]) (hok (.notKeyValue (String.ofList line)))
  | some pair =>
    obtain ⟨key, value⟩ := pair
    refine ⟨key, value, rfl, ?_⟩
    simp only [hp] at hok ⊢
    cases hs : Setting.ofKey? key with
    | none =>
      refine Or.inl ⟨fun s hk => ?_, rfl⟩
      rw [(Setting.ofKey?_eq_some_iff key s).mpr hk] at hs
      exact Option.some_ne_none s hs
    | some s =>
      right
      simp only [hs] at hok ⊢
      cases hr : s.read key value with
      | error e => exact absurd (by rw [hr]; rfl) (hok e)
      | ok d =>
        obtain ⟨rfl, hd⟩ := (Setting.read_eq_ok_iff key value s d).mp hr
        exact ⟨d, (Setting.ofKey?_eq_some_iff key _).mp hs, hd, rfl⟩

theorem changes_cases (raw : List (List Char)) :
    let lines := (raw.map Text.trim).filter fun line => !isSkipped line
    (∃ before line after error, lines = before ++ line :: after ∧
      (∀ l ∈ before, ∀ e, ¬ Faulty l e) ∧ Faulty line error ∧ changes raw = .error error) ∨
      (∀ l ∈ lines, ∀ e, ¬ Faulty l e) ∧ changes raw = .ok (lines.filterMap change?) := by
  induction raw with
  | nil => exact Or.inr ⟨fun _ h => absurd h List.not_mem_nil, rfl⟩
  | cons line rest ih =>
    rw [List.map_cons, changes, readLine_eq]
    cases hs : isSkipped (Text.trim line) with
    | true =>
      rw [List.filter_cons_of_neg (by simp [hs]), if_pos rfl]
      rcases ih with ⟨before, l, after, error, hl, hb, hf, he⟩ | ⟨hg, hc⟩
      · exact Or.inl ⟨before, l, after, error, hl, hb, hf, by rw [he]; rfl⟩
      · exact Or.inr ⟨hg, by rw [hc]; rfl⟩
    | false =>
      rw [List.filter_cons_of_pos (by simp [hs]), if_neg Bool.false_ne_true]
      cases ha : ask (Text.trim line) with
      | error error =>
        exact Or.inl ⟨[], _, _, error, rfl, fun _ h => absurd h List.not_mem_nil,
          (faulty_iff _ _).mpr ha, rfl⟩
      | ok d =>
        have hline (e : ConfigError) : ¬ Faulty (Text.trim line) e := by
          rw [faulty_iff, ha]
          exact fun h => absurd h (by simp)
        rcases ih with ⟨before, l, after, error, hl, hb, hf, he⟩ | ⟨hg, hc⟩
        · refine Or.inl ⟨Text.trim line :: before, l, after, error, by rw [hl]; rfl, ?_, hf,
            by rw [he]; rfl⟩
          exact List.forall_mem_cons.mpr ⟨hline, hb⟩
        · refine Or.inr ⟨List.forall_mem_cons.mpr ⟨hline, hg⟩, ?_⟩
          have hd : change? (Text.trim line) = d := by
            rw [change?, ha]
            rfl
          rw [hc, List.filterMap_cons, hd]
          cases d <;> rfl

def lastFor? (s : Setting) (pairs : List (String × String)) : Option (String × String) :=
  (pairs.filter fun pair => s.keys.contains pair.1).getLast?

theorem lastFor?_concat (s : Setting) (pairs : List (String × String)) (pair : String × String) :
    lastFor? s (pairs ++ [pair]) = if pair.1 ∈ s.keys then some pair else lastFor? s pairs := by
  unfold lastFor?
  rw [List.filter_append]
  split
  · rename_i h
    rw [List.filter_cons_of_pos (by simpa using h), List.filter_nil, List.getLast?_concat]
  · rename_i h
    rw [List.filter_cons_of_neg (by simpa using h), List.filter_nil, List.append_nil]

/-- Each field has the value that is said last, or its default. -/
def Declares (pairs : List (String × String)) (c : Config) : Prop :=
  ∀ s : Setting, match lastFor? s pairs with
    | some (_, value) => (c.field s).IsSaidBy value
    | none => c.field s = ({} : Config).field s

theorem Declares.unique {pairs : List (String × String)} {c c' : Config} (h : Declares pairs c)
    (h' : Declares pairs c') : c = c' := by
  refine Config.field_injective c c' fun s => ?_
  have hs := h s
  have hs' := h' s
  cases hl : lastFor? s pairs with
  | none =>
    rw [hl] at hs hs'
    exact hs.trans hs'.symm
  | some pair =>
    rw [hl] at hs hs'
    have hr := (Setting.read_eq_ok_iff pair.1 pair.2 s _).mpr ⟨c.setting_field s, hs⟩
    have hr' := (Setting.read_eq_ok_iff pair.1 pair.2 s _).mpr ⟨c'.setting_field s, hs'⟩
    exact Except.ok.inj (hr.symm.trans hr')

/-- Change by change, the last value of each field is the one that stays. -/
theorem declares_changeAll (lines : List (List Char)) (h : ∀ l ∈ lines, ∀ e, ¬ Faulty l e) :
    Declares (lines.filterMap pair?) (Config.changeAll {} (lines.filterMap change?)) := by
  induction lines using List.reverseRecOn with
  | nil => exact fun s => rfl
  | append_singleton lines line ih =>
    have hlines := ih fun l hl => h l (List.mem_append_left _ hl)
    obtain ⟨key, value, hp, hc⟩ := change?_cases line (h line (List.mem_append_right _ (by simp)))
    rw [List.filterMap_append, List.filterMap_append, Config.changeAll_append]
    generalize Config.changeAll {} (lines.filterMap change?) = c at hlines ⊢
    have hpairs : [line].filterMap pair? = [(key, value)] := by
      rw [List.filterMap_cons, hp, List.filterMap_nil]
    intro s
    rw [hpairs, lastFor?_concat]
    rcases hc with ⟨hk, hc⟩ | ⟨d, hk, hd, hc⟩
    · have hchanges : [line].filterMap change? = [] := by
        rw [List.filterMap_cons, hc, List.filterMap_nil]
      rw [hchanges, if_neg (hk s)]
      exact hlines s
    · have hchanges : [line].filterMap change? = [d] := by
        rw [List.filterMap_cons, hc, List.filterMap_nil]
      have hone : c.changeAll [d] = c.change d := rfl
      rw [hchanges, hone, Config.field_change]
      by_cases hs : d.setting = s
      · subst hs
        rw [if_pos hk, if_pos rfl]
        exact hd
      · have hn : key ∉ s.keys := by
          intro hk'
          rw [← Setting.ofKey?_eq_some_iff] at hk hk'
          exact hs (Option.some.inj (hk.symm.trans hk'))
        rw [if_neg hn, if_neg hs]
        exact hlines s

/-- What the lines come to: the first fault, or the verdict on the configuration that they
declare. -/
inductive Reading (lines : List (List Char)) : Except ConfigError Config → Prop
  | refused (before : List (List Char)) (line : List Char) (after : List (List Char))
      (error : ConfigError) (h : lines = before ++ line :: after)
      (hb : ∀ l ∈ before, ∀ e, ¬ Faulty l e) (hf : Faulty line error) :
      Reading lines (.error error)
  | judged (c : Config) (h : ∀ l ∈ lines, ∀ e, ¬ Faulty l e)
      (hc : Declares (lines.filterMap pair?) c) : Reading lines (c.validate.map fun _ => c)

theorem first_fault {between rest : List (List Char)} {line line' : List Char}
    {after : List (List Char)} {error : ConfigError} (h : line :: after = between ++ line' :: rest)
    (hb : ∀ l ∈ between, ∀ e, ¬ Faulty l e) (hf : Faulty line error) : line = line' := by
  cases between with
  | nil => exact (List.cons.inj h).1
  | cons l between =>
    obtain ⟨rfl, -⟩ := List.cons.inj h
    exact absurd hf (hb line List.mem_cons_self error)

theorem Reading.unique {lines : List (List Char)} {result result' : Except ConfigError Config}
    (h : Reading lines result) (h' : Reading lines result') : result = result' := by
  cases h with
  | refused before line after error h hb hf =>
    cases h' with
    | refused before' line' after' error' h' hb' hf' =>
      have hline : line = line' := by
        rcases List.append_eq_append_iff.mp (h.symm.trans h') with
          ⟨between, rfl, ha⟩ | ⟨between, rfl, ha⟩
        · exact first_fault ha (fun l hl => hb' l (List.mem_append_right _ hl)) hf
        · exact (first_fault ha (fun l hl => hb l (List.mem_append_right _ hl)) hf').symm
      subst hline
      exact congrArg _ (faulty_unique hf hf')
    | judged c hg hc => exact absurd hf (hg line (by rw [h]; simp) error)
  | judged c hg hc =>
    cases h' with
    | refused before' line' after' error' h' hb' hf' =>
      exact absurd hf' (hg line' (by rw [h']; simp) error')
    | judged c' hg' hc' => rw [hc.unique hc']

theorem validated_eq (c : Config) :
    (do c.validate; return c) = c.validate.map fun _ => c := by
  cases c.validate <;> rfl

theorem reading_ofProperties (text : String) :
    Reading (settingLines text) (Config.ofProperties text) := by
  unfold Config.ofProperties
  rcases changes_cases (Text.lines text.toList) with
    ⟨before, line, after, error, hl, hb, hf, he⟩ | ⟨hg, hc⟩
  · rw [he]
    exact .refused before line after error hl hb hf
  · have hall : changes (Text.lines text.toList) = .ok ((settingLines text).filterMap change?) := hc
    have hr := Reading.judged _ hg (declares_changeAll (settingLines text) hg)
    generalize (settingLines text).filterMap change? = collected at hall hr
    rw [← validated_eq] at hr
    rw [hall]
    exact hr

/-- A text reads as the first complaint about one of its lines, or else as the configuration in
which the last line with a key of a setting decides, if this is valid. -/
theorem ofProperties_eq_iff (text : String) (result : Except ConfigError Config) :
    Config.ofProperties text = result ↔ Reading (settingLines text) result := by
  constructor
  · rintro rfl
    exact reading_ofProperties text
  · exact fun h => (reading_ofProperties text).unique h

/-- A value that would be refused is not judged once a later line has replaced it. -/
example : Config.ofProperties
    "max_active_connections=0\n! limits\nPoolMaximumActiveConnections = +3" =
      .ok { maxActive := 3 } := by decide +kernel

end Properties

end ConnectionPool
