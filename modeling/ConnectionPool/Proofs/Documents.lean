import ConnectionPool.Proofs.Readings
import Mathlib.Data.List.DropRight
import Mathlib.Data.List.Perm.Basic

/-!
# Configurations written down

A configuration can be written if a line holds each of its texts and no blank at either end of one
would be lost, and if each of its times is a number of milliseconds that fits a 64-bit word. A
document for it has a line for each setting, in any order and with any spelling of the key, and
blank lines and comments anywhere. It reads as the configuration it was written for.
-/

set_option autoImplicit false

namespace ConnectionPool

namespace Text

theorem trimRight_eq (text : List Char) : trimRight text = text.rdropWhile isBlank := rfl

theorem trimRight_eq_self_iff (text : List Char) :
    trimRight text = text ↔ ∀ h : text ≠ [], isBlank (text.getLast h) = false := by
  rw [trimRight_eq, List.rdropWhile_eq_self_iff]
  simp

theorem trimLeft_cons {c : Char} (h : isBlank c = false) (text : List Char) :
    trimLeft (c :: text) = c :: text :=
  List.dropWhile_cons_of_neg (by simp [h])

theorem trim_of_forall {text : List Char} (h : ∀ c ∈ text, isBlank c = false) :
    trim text = text := by
  have hright : trimRight text = text :=
    (trimRight_eq_self_iff text).mpr fun hne => h _ (List.getLast_mem hne)
  cases text with
  | nil => rfl
  | cons c text =>
    rw [trim, trimLeft_cons (h c List.mem_cons_self), hright]

theorem trimRight_of_trim {text : List Char} (h : trim text = text) : trimRight text = text := by
  rw [← h, trim, trimRight_eq, trimRight_eq]
  exact List.rdropWhile_idempotent _ _

theorem trim_concat_blank {c : Char} (h : isBlank c = true) (text : List Char) :
    trim (text ++ [c]) = trim text := by
  unfold trim trimLeft
  rw [List.dropWhile_append]
  split
  · rename_i he
    rw [List.isEmpty_iff.mp he, List.dropWhile_cons_of_pos h, List.dropWhile_nil]
  · rw [trimRight_eq, trimRight_eq, List.rdropWhile_concat_pos _ _ _ h]

theorem trim_dropReturn (line : List Char) : trim (dropReturn line) = trim line := by
  unfold dropReturn
  split
  · rename_i rest h
    have hline : line = rest.reverse ++ ['\r'] := by
      rw [← List.reverse_cons, ← h, List.reverse_reverse]
    rw [hline, trim_concat_blank (by decide)]
  · rfl

theorem linesFrom_of_notMem {line : List Char} (h : '\n' ∉ line) (read : List Char) :
    linesFrom read line =
      if (line.reverse ++ read).isEmpty then [] else [dropReturn (read.reverse ++ line)] := by
  induction line generalizing read with
  | nil => simp [linesFrom]
  | cons c line ih =>
    obtain ⟨hc, hline⟩ := not_or.mp (mt List.mem_cons.mpr h)
    rw [linesFrom, ih hline]
    · simp
    · rintro rfl
      exact hc rfl

theorem linesFrom_append {line : List Char} (h : '\n' ∉ line) (read rest : List Char) :
    linesFrom read (line ++ '\n' :: rest) = dropReturn (read.reverse ++ line) :: lines rest := by
  induction line generalizing read with
  | nil => simp [linesFrom, lines]
  | cons c line ih =>
    obtain ⟨hc, hline⟩ := not_or.mp (mt List.mem_cons.mpr h)
    rw [List.cons_append, linesFrom, ih hline]
    · simp
    · rintro rfl
      exact hc rfl

def isPlain (c : Char) : Bool :=
  let n := c.toNat
  (0x30 ≤ n && n ≤ 0x39) || (0x41 ≤ n && n ≤ 0x5A) || n == 0x5F || (0x61 ≤ n && n ≤ 0x7A)

theorem isPlain_iff (c : Char) :
    isPlain c = true ↔ 0x30 ≤ c.toNat ∧ c.toNat ≤ 0x39 ∨ 0x41 ≤ c.toNat ∧ c.toNat ≤ 0x5A ∨
      c.toNat = 0x5F ∨ 0x61 ≤ c.toNat ∧ c.toNat ≤ 0x7A := by
  simp only [isPlain, Bool.or_eq_true, Bool.and_eq_true, decide_eq_true_eq, beq_iff_eq, or_assoc]

theorem isPlain_of_isDigit {c : Char} (h : c.isDigit = true) : isPlain c = true := by
  simp only [Char.isDigit, Bool.and_eq_true, decide_eq_true_eq, ge_iff_le,
    UInt32.le_iff_toNat_le] at h
  exact (isPlain_iff c).mpr (Or.inl h)

theorem isPlain_of_toLower {c : Char} (h : isPlain c.toLower = true) : isPlain c = true := by
  unfold Char.toLower at h
  split at h
  · rename_i hc
    simp only [ge_iff_le, UInt32.le_iff_toNat_le] at hc
    exact (isPlain_iff c).mpr (Or.inr (Or.inl hc))
  · exact h

theorem isBlank_of_isPlain {c : Char} (h : isPlain c = true) : isBlank c = false := by
  rw [isPlain_iff] at h
  simp only [isBlank, Bool.or_eq_false_iff, Bool.and_eq_false_iff, decide_eq_false_iff_not,
    beq_eq_false_iff_ne]
  omega

theorem notMem_of_plain {text : List Char} (h : ∀ c ∈ text, isPlain c = true) {c : Char}
    (hc : isPlain c = false) : c ∉ text := by
  intro hmem
  rw [h c hmem] at hc
  exact Bool.noConfusion hc

theorem trim_of_plain {text : List Char} (h : ∀ c ∈ text, isPlain c = true) : trim text = text :=
  trim_of_forall fun c hc => isBlank_of_isPlain (h c hc)

theorem toList_toString (n : Nat) : (toString n).toList = Nat.toDigits 10 n := by
  rw [Nat.toString_eq_ofList_toDigits, String.toList_ofList]

theorem isDigit_of_mem_toString {n : Nat} {c : Char} (h : c ∈ (toString n).toList) :
    c.isDigit = true := by
  rw [toList_toString] at h
  exact Nat.isDigit_of_mem_toDigits (by decide) (by decide) h

theorem isNumeral_toString {n : Nat} (h : n < UInt64.size) : IsNumeral (toString n).toList n := by
  have hdigits : ∀ c ∈ (toString n).toList, c.isDigit = true := fun _ => isDigit_of_mem_toString
  refine ⟨[], (toString n).toList, rfl, Or.inl rfl, ?_, hdigits, ?_, h⟩
  · rw [toList_toString]
    exact Nat.toDigits_ne_nil
  · rw [toList_toString, Nat.ofDigitChars_ten_toDigits]

end Text

namespace Setting

/-- The text spells a key of the setting, in letters of either case. -/
def Spells (s : Setting) (text : List Char) : Prop :=
  ∃ key ∈ s.keys, text.map Char.toLower = key.toList

instance (s : Setting) (text : List Char) : Decidable (s.Spells text) :=
  inferInstanceAs (Decidable (∃ key ∈ s.keys, _))

theorem keys_plain (s : Setting) (key : String) (h : key ∈ s.keys) :
    key ≠ "" ∧ ∀ c ∈ key.toList, Text.isPlain c = true := by
  have hall : ∀ s ∈ all, ∀ key ∈ s.keys, key ≠ "" ∧ key.toList.all Text.isPlain = true := by
    decide +kernel
  exact (hall s (by cases s <;> decide) key h).imp_right List.all_eq_true.mp

theorem Spells.plain {s : Setting} {text : List Char} (h : s.Spells text) :
    ∀ c ∈ text, Text.isPlain c = true := by
  obtain ⟨key, hkey, htext⟩ := h
  intro c hc
  apply Text.isPlain_of_toLower
  apply (keys_plain s key hkey).2
  rw [← htext]
  exact List.mem_map_of_mem hc

theorem Spells.ne_nil {s : Setting} {text : List Char} (h : s.Spells text) : text ≠ [] := by
  obtain ⟨key, hkey, htext⟩ := h
  rintro rfl
  exact (keys_plain s key hkey).1 (String.toList_eq_nil_iff.mp htext.symm)

theorem Spells.normalKey {s : Setting} {text : List Char} (h : s.Spells text) :
    Properties.normalKey text ∈ s.keys := by
  obtain ⟨key, hkey, htext⟩ := id h
  have hlower : text.map lowerChar = text.map Char.toLower := by
    apply List.map_congr_left
    intro c hc
    -- the only letter outside ASCII with a lower-case one in it is not plain
    have hne : c ≠ '\u212A' := by
      rintro rfl
      exact absurd (h.plain _ hc) (by decide)
    exact if_neg hne
  rw [Properties.normalKey, Text.trim_of_plain h.plain, hlower, htext, String.ofList_toList]
  exact hkey

end Setting

namespace Config

def shown (c : Config) : Setting → String
  | .url => c.url
  | .username => c.username
  | .password => c.password
  | .maxActive => toString c.maxActive.toNat
  | .maxIdle => toString c.maxIdle.toNat
  | .maxCheckout => toString (c.maxCheckout / Nanos.ofMillis 1)
  | .timeToWait => toString (c.timeToWait / Nanos.ofMillis 1)
  | .tolerance => toString c.tolerance.toNat
  | .pingQuery => c.pingQuery
  | .pingEnabled => toString c.pingEnabled
  | .pingUnusedFor => toString (c.pingUnusedFor / Nanos.ofMillis 1)

/-- The value of each setting can be written on a line. -/
structure Expressible (c : Config) : Prop where
  texts : ∀ text ∈ [c.url, c.username, c.password, c.pingQuery],
    '\n' ∉ text.toList ∧ Text.trim text.toList = text.toList
  times : ∀ time ∈ [c.maxCheckout, c.timeToWait, c.pingUnusedFor],
    ∃ n < UInt64.size, time = Nanos.ofMillis n

theorem millis_ofMillis (n : Nat) : Nanos.ofMillis n / Nanos.ofMillis 1 = n := by
  unfold Nanos.ofMillis
  rw [Nat.one_mul]
  exact Nat.mul_div_cancel n (by decide)

theorem Expressible.said {c : Config} (h : c.Expressible) (s : Setting) :
    (c.field s).IsSaidBy (c.shown s) := by
  have htime (time : Nat) (hmem : time ∈ [c.maxCheckout, c.timeToWait, c.pingUnusedFor]) :
      ∃ n, Text.IsNumeral (toString (time / Nanos.ofMillis 1)).toList n ∧
        time = Nanos.ofMillis n := by
    obtain ⟨n, hn, rfl⟩ := h.times time hmem
    rw [millis_ofMillis]
    exact ⟨n, Text.isNumeral_toString hn, rfl⟩
  cases s with
  | url | username | password | pingQuery => rfl
  | maxActive | maxIdle | tolerance => exact Text.isNumeral_toString (UInt64.toNat_lt _)
  | maxCheckout | timeToWait | pingUnusedFor => exact htime _ (by simp)
  | pingEnabled =>
    change c.pingEnabled = Setting.isYes (toString c.pingEnabled)
    cases c.pingEnabled <;> decide

theorem Expressible.shown_trim {c : Config} (h : c.Expressible) (s : Setting) :
    '\n' ∉ (c.shown s).toList ∧ Text.trim (c.shown s).toList = (c.shown s).toList := by
  have hplain (text : List Char) (hp : ∀ c ∈ text, Text.isPlain c = true) :
      '\n' ∉ text ∧ Text.trim text = text :=
    ⟨Text.notMem_of_plain hp (by decide), Text.trim_of_plain hp⟩
  cases s with
  | url | username | password | pingQuery => exact h.texts _ (by simp [shown])
  | maxActive | maxIdle | tolerance | maxCheckout | timeToWait | pingUnusedFor =>
    exact hplain _ fun c hc => Text.isPlain_of_isDigit (Text.isDigit_of_mem_toString hc)
  | pingEnabled =>
    change '\n' ∉ (toString c.pingEnabled).toList ∧ _
    cases hp : c.pingEnabled <;> rw [shown, hp] <;>
      exact hplain _ (List.all_eq_true.mp (by decide))

end Config

namespace Properties

def document (lines : List (List Char)) : String := String.ofList (['\n'].intercalate lines)

/-- A line that says nothing: a blank one, or a comment. -/
def IsGap (line : List Char) : Prop := '\n' ∉ line ∧ isSkipped (Text.trim line) = true

instance (line : List Char) : Decidable (IsGap line) := inferInstanceAs (Decidable (_ ∧ _))

/-- The lines write the configuration down, with these settings in this order. -/
inductive Written (c : Config) : List (List Char) → List Setting → Prop
  | nil : Written c [] []
  | gap (line : List Char) (h : IsGap line) {lines : List (List Char)} {order : List Setting}
      (hw : Written c lines order) : Written c (line :: lines) order
  | setting (key : List Char) (s : Setting) (h : s.Spells key) {lines : List (List Char)}
      {order : List Setting} (hw : Written c lines order) :
      Written c ((key ++ '=' :: (c.shown s).toList) :: lines) (s :: order)

def effective (raw : List (List Char)) : List (List Char) :=
  (raw.map Text.trim).filter fun line => !isSkipped line

theorem effective_gap {line : List Char} (h : isSkipped (Text.trim line) = true)
    (raw : List (List Char)) : effective (line :: raw) = effective raw := by
  unfold effective
  rw [List.map_cons, List.filter_cons_of_neg (by simp [h])]

theorem effective_cons_congr {line line' : List Char} {raw raw' : List (List Char)}
    (h : Text.trim line = Text.trim line') (hr : effective raw = effective raw') :
    effective (line :: raw) = effective (line' :: raw') := by
  unfold effective at hr ⊢
  rw [List.map_cons, List.map_cons, h, List.filter_cons, List.filter_cons, hr]

theorem effective_lines (lines : List (List Char)) (h : ∀ line ∈ lines, '\n' ∉ line) :
    effective (Text.lines (['\n'].intercalate lines)) = effective lines := by
  induction lines with
  | nil => rfl
  | cons line lines ih =>
    obtain ⟨hline, hlines⟩ := List.forall_mem_cons.mp h
    cases lines with
    | nil =>
      rw [List.intercalate_singleton, Text.lines, Text.linesFrom_of_notMem hline]
      split
      · rename_i he
        obtain rfl : line = [] := by simpa using he
        rfl
      · exact effective_cons_congr (Text.trim_dropReturn line) rfl
    | cons line' lines =>
      rw [List.intercalate_cons_cons, List.append_assoc, Text.lines, List.singleton_append,
        Text.linesFrom_append hline]
      exact effective_cons_congr (Text.trim_dropReturn line) (ih hlines)

theorem settingLines_document (lines : List (List Char)) (h : ∀ line ∈ lines, '\n' ∉ line) :
    settingLines (document lines) = effective lines := by
  rw [← effective_lines lines h, settingLines, document, String.toList_ofList]
  rfl

theorem splitPair?_append {key : List Char} (h : '=' ∉ key) (value : List Char) :
    splitPair? (key ++ '=' :: value) = some (key, value) := by
  induction key with
  | nil => rfl
  | cons c key ih =>
    obtain ⟨hc, hkey⟩ := not_or.mp (mt List.mem_cons.mpr h)
    rw [List.cons_append, splitPair?, if_neg (Ne.symm hc), ih hkey]
    rfl

section SettingLine

variable {s : Setting} {key value : List Char} (hk : s.Spells key)

include hk

theorem trim_setting (hv : Text.trim value = value) :
    Text.trim (key ++ '=' :: value) = key ++ '=' :: value := by
  have hright : Text.trimRight (key ++ '=' :: value) = key ++ '=' :: value := by
    rw [Text.trimRight_eq_self_iff]
    intro hne
    rw [List.getLast_append_of_ne_nil _ (List.cons_ne_nil _ _)]
    rcases eq_or_ne value [] with rfl | hvalue
    · decide
    · rw [List.getLast_cons hvalue]
      exact (Text.trimRight_eq_self_iff value).mp (Text.trimRight_of_trim hv) hvalue
  obtain ⟨c, rest, rfl⟩ := List.exists_cons_of_ne_nil hk.ne_nil
  have hc := Text.isBlank_of_isPlain (hk.plain c List.mem_cons_self)
  rw [Text.trim, List.cons_append, Text.trimLeft_cons hc, ← List.cons_append, hright]

theorem isSkipped_setting : isSkipped (key ++ '=' :: value) = false := by
  obtain ⟨c, rest, rfl⟩ := List.exists_cons_of_ne_nil hk.ne_nil
  have hne (d : Char) (hd : Text.isPlain d = false) : c ≠ d := by
    rintro rfl
    exact Text.notMem_of_plain hk.plain hd List.mem_cons_self
  simp [isSkipped, hne '#' (by decide), hne '!' (by decide)]

theorem pair?_setting (hv : Text.trim value = value) :
    pair? (key ++ '=' :: value) = some (normalKey key, String.ofList value) := by
  have hkey : '=' ∉ key := Text.notMem_of_plain hk.plain (by decide)
  rw [pair?, splitPair?_append hkey, Option.map_some, hv]

end SettingLine

theorem not_faulty_of_isSaidBy {line : List Char} {key value : String} {d : Config.Change}
    (h : pair? line = some (key, value)) (hk : key ∈ d.setting.keys) (hd : d.IsSaidBy value)
    (error : ConfigError) : ¬ Faulty line error := by
  have hread := (Setting.read_eq_ok_iff key value d.setting d).mpr ⟨rfl, hd⟩
  rw [faulty_iff, ask, h]
  simp [(Setting.ofKey?_eq_some_iff key d.setting).mpr hk, hread, Except.map]

def Gives (c : Config) (line : List Char) (s : Setting) : Prop :=
  ∃ key ∈ s.keys, pair? line = some (key, c.shown s)

section Written

variable {c : Config} {lines : List (List Char)} {order : List Setting} (he : c.Expressible)

include he

theorem Written.notMem (hw : Written c lines order) : ∀ line ∈ lines, '\n' ∉ line := by
  induction hw with
  | nil => exact fun _ h => absurd h List.not_mem_nil
  | gap line h hw ih => exact List.forall_mem_cons.mpr ⟨h.1, ih⟩
  | setting key s h hw ih =>
    refine List.forall_mem_cons.mpr ⟨?_, ih⟩
    rw [List.mem_append, List.mem_cons]
    rintro (hkey | heq | hvalue)
    · exact Text.notMem_of_plain h.plain (by decide) hkey
    · exact absurd heq (by decide)
    · exact (he.shown_trim s).1 hvalue

theorem Written.gives (hw : Written c lines order) :
    List.Forall₂ (Gives c) (effective lines) order := by
  induction hw with
  | nil => exact .nil
  | gap line h hw ih =>
    rw [effective_gap h.2]
    exact ih
  | setting key s h hw ih =>
    have hv := (he.shown_trim s).2
    rw [effective, List.map_cons, trim_setting h hv, List.filter_cons_of_pos
      (by rw [isSkipped_setting h]; rfl)]
    refine .cons ⟨normalKey key, h.normalKey, ?_⟩ ih
    rw [pair?_setting h hv, String.ofList_toList]

theorem not_faulty_of_gives (hg : List.Forall₂ (Gives c) lines order) :
    ∀ line ∈ lines, ∀ error, ¬ Faulty line error := by
  induction hg with
  | nil => exact fun _ h => absurd h List.not_mem_nil
  | @cons line s _ _ h _ ih =>
    obtain ⟨key, hk, hp⟩ := h
    refine List.forall_mem_cons.mpr ⟨?_, ih⟩
    rw [← c.setting_field s] at hk
    exact not_faulty_of_isSaidBy hp hk (he.said s)

omit he in
theorem pairs_of_gives (hg : List.Forall₂ (Gives c) lines order) (s : Setting) :
    (∀ key value, (key, value) ∈ lines.filterMap pair? → key ∈ s.keys → value = c.shown s) ∧
      (s ∈ order → ∃ key ∈ s.keys, (key, c.shown s) ∈ lines.filterMap pair?) := by
  induction hg with
  | nil => simp
  | @cons line s' lines order h _ ih =>
    obtain ⟨key', hk', hp⟩ := h
    rw [List.filterMap_cons, hp]
    constructor
    · intro key value hmem hk
      rcases List.mem_cons.mp hmem with heq | hmem
      · obtain ⟨rfl, rfl⟩ := Prod.mk.inj heq
        rw [← Setting.ofKey?_eq_some_iff] at hk hk'
        rw [Option.some.inj (hk.symm.trans hk')]
      · exact ih.1 key value hmem hk
    · intro hs
      rcases List.mem_cons.mp hs with rfl | hs
      · exact ⟨key', hk', List.mem_cons_self⟩
      · obtain ⟨key, hk, hmem⟩ := ih.2 hs
        exact ⟨key, hk, List.mem_cons_of_mem _ hmem⟩

theorem declares_of_gives (hg : List.Forall₂ (Gives c) lines order) (hall : ∀ s, s ∈ order) :
    Declares (lines.filterMap pair?) c := by
  intro s
  obtain ⟨hvalue, hmem⟩ := pairs_of_gives hg s
  obtain ⟨key, hk, hpair⟩ := hmem (hall s)
  cases hl : lastFor? s (lines.filterMap pair?) with
  | none =>
    rw [lastFor?, List.getLast?_eq_none_iff, List.filter_eq_nil_iff] at hl
    exact absurd (by simpa using hk) (hl _ hpair)
  | some pair =>
    obtain ⟨hin, hkey⟩ := List.mem_filter.mp (List.mem_of_getLast? hl)
    have hsaid := he.said s
    rw [← hvalue pair.1 pair.2 hin (by simpa using hkey)] at hsaid
    exact hsaid

end Written

/-- A usable configuration that can be written reads back from every document that writes it
down. -/
theorem ofProperties_document (c : Config) (he : c.Expressible) (hv : c.validate = .ok ())
    (lines : List (List Char)) (order : List Setting) (hw : Written c lines order)
    (hp : order.Perm Setting.all) : Config.ofProperties (document lines) = .ok c := by
  have hall (s : Setting) : s ∈ order := hp.mem_iff.mpr (by cases s <;> decide)
  have hg := hw.gives he
  have hread : Reading (effective lines) (c.validate.map fun _ => c) :=
    .judged c (not_faulty_of_gives he hg) (declares_of_gives he hg hall)
  have hr := reading_ofProperties (document lines)
  rw [settingLines_document lines (hw.notMem he)] at hr
  rw [hr.unique hread, hv]
  rfl

/-- Its texts could be taken for comments and for other pairs, and its numbers are the least and the
greatest. -/
def extremes : Config where
  url := "#mem://a\rb?user=c"
  username := "! \u212A ="
  maxActive := 1
  maxIdle := 0
  maxCheckout := Nanos.ofMillis 18446744073709551615
  timeToWait := Nanos.ofMillis 0
  tolerance := 18446744073709551615
  pingQuery := "select '  url=' #"
  pingEnabled := true

theorem ofProperties_document_extremes :
    Config.ofProperties (document (["! limits, then texts\r",
      "POOLMaximumLocalBadConnectionTolerance=18446744073709551615",
      "max_ACTIVE_connections=1",
      "poolMaximumIdleConnections=0",
      " \t",
      "max_checkout_time_ms=18446744073709551615",
      "PoolTimeToWait=0",
      "ping_connections_not_used_for_ms=0",
      "poolPingEnabled=true",
      "ping_query=select '  url=' #",
      "  # url=mem://",
      "URL=#mem://a\rb?user=c",
      "User=! \u212A =",
      "password=",
      ""].map String.toList)) = .ok extremes := by
  have he : extremes.Expressible :=
    { texts := by decide +kernel
      times := List.forall_mem_cons.mpr ⟨⟨_, by decide, rfl⟩,
        List.forall_mem_cons.mpr ⟨⟨_, by decide, rfl⟩,
          List.forall_mem_cons.mpr ⟨⟨0, by decide, rfl⟩, fun _ h => absurd h List.not_mem_nil⟩⟩⟩ }
  have hw : Written extremes _ _ :=
    .gap "! limits, then texts\r".toList (by decide +kernel) <|
    .setting "POOLMaximumLocalBadConnectionTolerance".toList .tolerance (by decide +kernel) <|
    .setting "max_ACTIVE_connections".toList .maxActive (by decide +kernel) <|
    .setting "poolMaximumIdleConnections".toList .maxIdle (by decide +kernel) <|
    .gap " \t".toList (by decide +kernel) <|
    .setting "max_checkout_time_ms".toList .maxCheckout (by decide +kernel) <|
    .setting "PoolTimeToWait".toList .timeToWait (by decide +kernel) <|
    .setting "ping_connections_not_used_for_ms".toList .pingUnusedFor (by decide +kernel) <|
    .setting "poolPingEnabled".toList .pingEnabled (by decide +kernel) <|
    .setting "ping_query".toList .pingQuery (by decide +kernel) <|
    .gap "  # url=mem://".toList (by decide +kernel) <|
    .setting "URL".toList .url (by decide +kernel) <|
    .setting "User".toList .username (by decide +kernel) <|
    .setting "password".toList .password (by decide +kernel) <|
    .gap [] (by decide) .nil
  have hread := ofProperties_document extremes he (by decide +kernel) _ _ hw (by decide)
  refine Eq.trans (congrArg (fun lines => Config.ofProperties (document lines)) ?_) hread
  decide +kernel

end Properties

end ConnectionPool
