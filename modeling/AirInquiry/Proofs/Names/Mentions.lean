import AirInquiry.Names.Index
import AirInquiry.Proofs.Lists
import AirInquiry.Proofs.Text.Words
import Mathlib.Data.Finset.Card

/-!
# Which known name a text mentions

A run of one to six words of a text mentions a known name if it consists of the words of this name
(`NameIndex.IsMention`). The name that is found is shown as the last name in the list with the words
of the leftmost mention, and of the mentions that start there of the longest one. Nothing is found
exactly if the text mentions no name (`NameIndex.firstMention_ofNames`).

The search needs to know only which keys stand for names (`NameIndex.firstAmong_eq_some_iff`). What
a key stands for follows from the list of names one by one, from its start: a new name takes the
place of an older one with the same words, and leaves all others as they are
(`NameIndex.nameOf_concat`).
-/

set_option autoImplicit false
set_option relaxedAutoImplicit false

namespace AirInquiry.NameIndex

/-- A run of words of a text, from some word on, that are the words of a known name. -/
structure IsMention (names : List String) (text : String) (start length : Nat) : Prop where
  length_pos : 1 ≤ length
  length_le : length ≤ 6
  inText : start + length ≤ (Text.words text).length
  isName : ∃ name ∈ names, Text.words name = ((Text.words text).drop start).take length

/-- The leftmost mention of a name, and of these the longest. -/
structure IsFirstMention (names : List String) (text : String) (start length : Nat) : Prop
    extends IsMention names text start length where
  leftmost : ∀ other size, IsMention names text other size → start ≤ other
  longest : ∀ size, IsMention names text start size → size ≤ length

/-- The last name of a list that has some words. -/
def IsLastWith (names words : List String) (name : String) : Prop :=
  ∃ front behind, names = front ++ name :: behind ∧ Text.words name = words ∧
    ∀ other ∈ behind, Text.words other ≠ words

/-! ### The search among keys -/

section Search

variable {index : NameIndex} {words : List String} {shown : String}

/-- A run of at most six words whose key stands for a name. -/
@[mk_iff]
structure IsHit (index : NameIndex) (words : List String) (start length : Nat) : Prop where
  length_pos : 1 ≤ length
  length_le : length ≤ min runLimit (words.length - start)
  isKnown : (index.nameOf (keyOfWords ((words.drop start).take length))).isSome = true

theorem nameOfRun_eq_none_iff {limit : Nat} :
    nameOfRun index words limit = none ↔
      ∀ length, 1 ≤ length → length ≤ limit →
        index.nameOf (keyOfWords (words.take length)) = none := by
  induction limit with
  | zero =>
    refine ⟨fun _ length hpos hle ↦ ?_, fun _ ↦ rfl⟩
    omega
  | succ limit ih =>
    rw [nameOfRun]
    split
    · next name hname =>
      constructor
      · intro h
        cases h
      · intro h
        rw [h (limit + 1) (by omega) (Nat.le_refl _)] at hname
        cases hname
    · next hname =>
      rw [ih]
      constructor
      · intro h length hpos hle
        rcases Nat.eq_or_lt_of_le hle with rfl | hlt
        · exact hname
        · exact h length hpos (by omega)
      · intro h length hpos hle
        exact h length hpos (by omega)

theorem nameOfRun_eq_some_iff {limit : Nat} :
    nameOfRun index words limit = some shown ↔
      ∃ length, 1 ≤ length ∧ length ≤ limit ∧
        index.nameOf (keyOfWords (words.take length)) = some shown ∧
        ∀ longer, length < longer → longer ≤ limit →
          index.nameOf (keyOfWords (words.take longer)) = none := by
  induction limit with
  | zero =>
    constructor
    · intro h
      cases h
    · rintro ⟨length, hpos, hle, -⟩
      omega
  | succ limit ih =>
    rw [nameOfRun]
    split
    · next name hname =>
      constructor
      · intro h
        cases h
        exact ⟨limit + 1, by omega, Nat.le_refl _, hname, fun longer _ _ ↦ by omega⟩
      · rintro ⟨length, hpos, hle, hshown, hlonger⟩
        rcases Nat.eq_or_lt_of_le hle with rfl | hlt
        · rw [← hname, hshown]
        · rw [hlonger _ hlt (Nat.le_refl _)] at hname
          cases hname
    · next hname =>
      rw [ih]
      constructor
      · rintro ⟨length, hpos, hle, hshown, hlonger⟩
        refine ⟨length, hpos, by omega, hshown, fun longer hlt hmore ↦ ?_⟩
        rcases Nat.eq_or_lt_of_le hmore with rfl | hfewer
        · exact hname
        · exact hlonger longer hlt (by omega)
      · rintro ⟨length, hpos, hle, hshown, hlonger⟩
        rcases Nat.eq_or_lt_of_le hle with rfl | hlt
        · rw [hname] at hshown
          cases hshown
        · exact ⟨length, hpos, by omega, hshown, fun longer hmore _ ↦
            hlonger longer hmore (by omega)⟩

/-- The leftmost hit, and of these the longest. -/
structure IsFirstHit (index : NameIndex) (words : List String) (start length : Nat) : Prop
    extends IsHit index words start length where
  leftmost : ∀ other size, IsHit index words other size → start ≤ other
  longest : ∀ size, IsHit index words start size → size ≤ length

theorem not_isHit_nil (start length : Nat) : ¬ IsHit index [] start length := by
  intro h
  have hpos := h.length_pos
  have hle := h.length_le
  rw [List.length_nil, Nat.zero_sub, Nat.min_zero] at hle
  omega

theorem isHit_cons_succ {word : String} {start length : Nat} :
    IsHit index (word :: words) (start + 1) length ↔ IsHit index words start length := by
  rw [isHit_iff, isHit_iff, List.drop_succ_cons, List.length_cons, Nat.add_sub_add_right]

theorem isHit_zero {length : Nat} :
    IsHit index words 0 length ↔ 1 ≤ length ∧ length ≤ min runLimit words.length ∧
      (index.nameOf (keyOfWords (words.take length))).isSome = true := by
  rw [isHit_iff, List.drop_zero, Nat.sub_zero]

/-- Where no run is known, no hit starts. -/
theorem not_isHit_zero (h : nameOfRun index words (min runLimit words.length) = none)
    (length : Nat) : ¬ IsHit index words 0 length := by
  rw [isHit_zero]
  rintro ⟨hpos, hle, hknown⟩
  rw [nameOfRun_eq_none_iff.1 h length hpos hle] at hknown
  cases hknown

/-- A name is found at the start of words exactly if the longest hit there stands for it. -/
theorem nameOfRun_eq_some_iff_isHit :
    nameOfRun index words (min runLimit words.length) = some shown ↔
      ∃ length, IsHit index words 0 length ∧ (∀ size, IsHit index words 0 size → size ≤ length) ∧
        index.nameOf (keyOfWords (words.take length)) = some shown := by
  simp only [nameOfRun_eq_some_iff, isHit_zero]
  constructor
  · rintro ⟨length, hpos, hle, hshown, hlonger⟩
    refine ⟨length, ⟨hpos, hle, by rw [hshown]; rfl⟩, ?_, hshown⟩
    rintro size ⟨-, hsize, hknown⟩
    by_contra hmore
    rw [hlonger size (by omega) hsize] at hknown
    cases hknown
  · rintro ⟨length, ⟨hpos, hle, -⟩, hlongest, hshown⟩
    refine ⟨length, hpos, hle, hshown, fun longer hlt hmore ↦ ?_⟩
    by_contra hknown
    have := hlongest longer ⟨by omega, hmore, Option.isSome_iff_ne_none.2 hknown⟩
    omega

/-- A name is found exactly if the first hit among the words stands for it. By induction on the
words, along the search. -/
theorem firstAmong_eq_some_iff :
    firstAmong index words = some shown ↔ ∃ start length, IsFirstHit index words start length ∧
      index.nameOf (keyOfWords ((words.drop start).take length)) = some shown := by
  induction words with
  | nil =>
    constructor
    · intro h
      cases h
    · rintro ⟨start, length, hhit, -⟩
      exact absurd hhit.toIsHit (not_isHit_nil start length)
  | cons word rest ih =>
    rw [firstAmong, ← List.length_cons]
    split
    · next name hname =>
      obtain ⟨length, hhit, hlongest, hshown⟩ := nameOfRun_eq_some_iff_isHit.1 hname
      constructor
      · intro h
        cases h
        exact ⟨0, length, ⟨hhit, fun _ _ _ ↦ Nat.zero_le _, hlongest⟩, hshown⟩
      · rintro ⟨start, size, hfirst, hother⟩
        obtain rfl := Nat.le_zero.1 (hfirst.leftmost 0 length hhit)
        rw [← hname]
        exact nameOfRun_eq_some_iff_isHit.2 ⟨size, hfirst.toIsHit, hfirst.longest, hother⟩
    · next hname =>
      rw [ih]
      constructor
      · rintro ⟨start, length, hfirst, hshown⟩
        refine ⟨start + 1, length, ⟨isHit_cons_succ.2 hfirst.toIsHit, ?_, ?_⟩, hshown⟩
        · rintro (_ | other) size hhit
          · exact absurd hhit (not_isHit_zero hname size)
          · exact Nat.succ_le_succ (hfirst.leftmost other size (isHit_cons_succ.1 hhit))
        · exact fun size hhit ↦ hfirst.longest size (isHit_cons_succ.1 hhit)
      · rintro ⟨_ | start, length, hfirst, hshown⟩
        · exact absurd hfirst.toIsHit (not_isHit_zero hname length)
        · refine ⟨start, length, ⟨isHit_cons_succ.1 hfirst.toIsHit, ?_, ?_⟩, hshown⟩
          · exact fun other size hhit ↦ Nat.le_of_succ_le_succ
              (hfirst.leftmost (other + 1) size (isHit_cons_succ.2 hhit))
          · exact fun size hhit ↦ hfirst.longest size (isHit_cons_succ.2 hhit)

theorem firstAmong_eq_none_iff :
    firstAmong index words = none ↔ ∀ start length, ¬ IsHit index words start length := by
  induction words with
  | nil => exact ⟨fun _ ↦ not_isHit_nil, fun _ ↦ rfl⟩
  | cons word rest ih =>
    rw [firstAmong, ← List.length_cons]
    split
    · next name hname =>
      obtain ⟨length, hhit, -⟩ := nameOfRun_eq_some_iff_isHit.1 hname
      constructor
      · intro h
        cases h
      · exact fun h ↦ absurd hhit (h 0 length)
    · next hname =>
      rw [ih]
      constructor
      · rintro h (_ | start) length
        · exact not_isHit_zero hname length
        · exact mt isHit_cons_succ.1 (h start length)
      · exact fun h start length ↦ mt isHit_cons_succ.2 (h (start + 1) length)

end Search

/-! ### What a key stands for -/

variable {names : List String}

theorem keyOfWords_eq_iff {first second : List String} (hfirst : ∀ word ∈ first, Text.IsWord word)
    (hsecond : ∀ word ∈ second, Text.IsWord word) :
    keyOfWords first = keyOfWords second ↔ first = second :=
  Text.join_eq_iff hfirst hsecond

theorem knownNameOf_eq (name : String) (place : Nat) :
    knownNameOf (name, place) = if Text.words name = [] then none
      else some ⟨place, Text.trim name, keyOfWords (Text.words name)⟩ := by
  have hempty : (keyOfWords (Text.words name)).isEmpty = true ↔ Text.words name = [] := by
    rw [String.isEmpty_iff]
    exact keyOfWords_eq_iff Text.isWord_of_mem_words (List.forall_mem_nil _)
  simp only [knownNameOf, Text.words_trim, hempty]

/-- One more name is known after all others, unless it has no words. -/
theorem known_concat (names : List String) (name : String) :
    (ofNames (names ++ [name])).known =
      (ofNames names).known ++ (knownNameOf (name, names.length)).toList := by
  rw [ofNames, List.zipIdx_append, List.filterMap_append, Nat.zero_add, List.zipIdx_singleton,
    ofNames]
  cases hknown : knownNameOf (name, names.length) with
  | none => rw [List.filterMap_cons_none hknown, Option.toList_none, List.filterMap_nil]
  | some known => rw [List.filterMap_cons_some hknown, Option.toList_some, List.filterMap_nil]

theorem id_lt_of_mem {known : KnownName} (h : known ∈ (ofNames names).known) :
    known.id < names.length := by
  obtain ⟨⟨name, place⟩, hentry, hknown⟩ := List.mem_filterMap.1 h
  have hplace := (List.mem_zipIdx' hentry).1
  rw [knownNameOf_eq] at hknown
  split at hknown
  · cases hknown
  · cases hknown
    exact hplace

/-- Every known name is shown at its own place. -/
theorem shownAt_of_mem {known : KnownName} (h : known ∈ (ofNames names).known) :
    (ofNames names).shownAt known.id = some known.name := by
  induction names using List.reverseRecOn with
  | nil => cases h
  | append_singleton names last ih =>
    rw [known_concat, List.mem_append] at h
    rw [shownAt, known_concat, List.find?_append]
    rcases h with hold | hnew
    · obtain ⟨found, hfound, hname⟩ := Option.map_eq_some_iff.1 (ih hold)
      rw [hfound, Option.some_or, Option.map_some, hname]
    · have hid : known.id = names.length := by
        rw [Option.mem_toList, knownNameOf_eq] at hnew
        split at hnew
        · cases hnew
        · cases hnew
          rfl
      have hnone : ((ofNames names).known.find? fun other ↦ other.id = known.id) = none := by
        refine List.find?_eq_none.2 fun other hother ↦ ?_
        have := id_lt_of_mem hother
        simp only [decide_eq_true_eq]
        omega
      rw [hnone, Option.none_or, Option.mem_toList.1 hnew, Option.toList_some]
      simp

/-- A key stands for the name of the last entry that has it. -/
theorem nameOf_eq (names : List String) (key : String) :
    (ofNames names).nameOf key =
      ((ofNames names).known.reverse.find? fun known ↦ known.key = key).map KnownName.name := by
  rw [nameOf, placeOf]
  cases hfound : (ofNames names).known.reverse.find? fun known ↦ known.key = key with
  | none => rfl
  | some known =>
    exact shownAt_of_mem (List.mem_reverse.1 (List.mem_of_find?_eq_some hfound))

/-- A new name takes its key over, and leaves all other keys as they are. -/
theorem nameOf_concat (names : List String) (last key : String) :
    (ofNames (names ++ [last])).nameOf key =
      if Text.words last ≠ [] ∧ keyOfWords (Text.words last) = key then some (Text.trim last)
      else (ofNames names).nameOf key := by
  rw [nameOf_eq, nameOf_eq, known_concat, List.reverse_append, knownNameOf_eq]
  by_cases hwords : Text.words last = []
  · simp [hwords]
  · by_cases hkey : keyOfWords (Text.words last) = key
    · simp [hwords, hkey]
    · simp [hwords, hkey]

theorem isLastWith_concat {last name : String} {words : List String} :
    IsLastWith (names ++ [last]) words name ↔
      if Text.words last = words then name = last else IsLastWith names words name := by
  constructor
  · rintro ⟨front, behind, hnames, hwords, hbehind⟩
    rcases List.eq_nil_or_concat behind with rfl | ⟨others, other, rfl⟩
    · obtain ⟨-, hlast⟩ := List.append_inj' hnames rfl
      obtain rfl := (List.cons.inj hlast).1
      rw [if_pos hwords]
    · rw [List.concat_eq_append, ← List.cons_append, ← List.append_assoc] at hnames
      obtain ⟨hfront, hlast⟩ := List.append_inj' hnames rfl
      obtain rfl := (List.cons.inj hlast).1
      rw [List.concat_eq_append] at hbehind
      rw [if_neg (hbehind last (by simp))]
      exact ⟨front, others, hfront, hwords, fun item hitem ↦
        hbehind item (List.mem_append_left _ hitem)⟩
  · split
    · next hwords =>
      rintro rfl
      exact ⟨names, [], rfl, hwords, List.forall_mem_nil _⟩
    · next hwords =>
      rintro ⟨front, behind, rfl, hname, hbehind⟩
      refine ⟨front, behind ++ [last], by simp, hname, fun other hother ↦ ?_⟩
      rcases List.mem_append.1 hother with hin | hin
      · exact hbehind other hin
      · obtain rfl := List.mem_singleton.1 hin
        exact hwords

/-- A list with a name of some words has a last one. -/
theorem exists_isLastWith_iff {words : List String} :
    (∃ name, IsLastWith names words name) ↔ ∃ name ∈ names, Text.words name = words := by
  induction names using List.reverseRecOn with
  | nil =>
    constructor
    · rintro ⟨name, front, behind, hnames, -⟩
      simp at hnames
    · rintro ⟨name, hname, -⟩
      cases hname
  | append_singleton names last ih =>
    simp only [isLastWith_concat, List.mem_append, List.mem_singleton]
    by_cases hwords : Text.words last = words
    · simp only [hwords, if_true, exists_eq, true_iff]
      exact ⟨last, .inr rfl, hwords⟩
    · simp only [hwords, if_false, ih]
      constructor
      · rintro ⟨name, hname, hsame⟩
        exact ⟨name, .inl hname, hsame⟩
      · rintro ⟨name, hname | rfl, hsame⟩
        · exact ⟨name, hname, hsame⟩
        · exact absurd hsame hwords

/-- The key of some words stands for the last name with these words. By induction on the list of
names from its end. -/
theorem nameOf_eq_some_iff {words : List String} (hwords : ∀ word ∈ words, Text.IsWord word)
    (hne : words ≠ []) {shown : String} :
    (ofNames names).nameOf (keyOfWords words) = some shown ↔
      ∃ name, IsLastWith names words name ∧ Text.trim name = shown := by
  induction names using List.reverseRecOn with
  | nil =>
    constructor
    · intro h
      cases h
    · rintro ⟨name, ⟨front, behind, hnames, -⟩, -⟩
      simp at hnames
  | append_singleton names last ih =>
    have hkey : keyOfWords (Text.words last) = keyOfWords words ↔ Text.words last = words :=
      keyOfWords_eq_iff Text.isWord_of_mem_words hwords
    simp only [nameOf_concat, hkey, isLastWith_concat]
    by_cases hlast : Text.words last = words
    · have hboth : Text.words last ≠ [] ∧ Text.words last = words := ⟨by rwa [hlast], hlast⟩
      simp only [if_pos hboth, if_pos hlast, Option.some.injEq, exists_eq_left]
    · simp only [hlast, and_false, if_false, ih]

theorem isSome_nameOf_iff {words : List String} (hwords : ∀ word ∈ words, Text.IsWord word)
    (hne : words ≠ []) :
    ((ofNames names).nameOf (keyOfWords words)).isSome = true ↔
      ∃ name ∈ names, Text.words name = words := by
  rw [Option.isSome_iff_exists, ← exists_isLastWith_iff]
  simp only [nameOf_eq_some_iff hwords hne]
  constructor
  · rintro ⟨shown, name, hname, -⟩
    exact ⟨name, hname⟩
  · rintro ⟨name, hname⟩
    exact ⟨_, name, hname, rfl⟩

/-! ### Mentions in a text -/

variable {text : String} {start length : Nat}

theorem isWord_of_mem_run : ∀ word ∈ ((Text.words text).drop start).take length, Text.IsWord word :=
  fun word hword ↦
    Text.isWord_of_mem_words word (List.mem_of_mem_drop (List.mem_of_mem_take hword))

theorem run_ne_nil (hpos : 1 ≤ length) (hle : start + length ≤ (Text.words text).length) :
    ((Text.words text).drop start).take length ≠ [] := by
  rw [← List.length_pos_iff, List.length_take, List.length_drop]
  omega

theorem isHit_iff_isMention :
    IsHit (ofNames names) (Text.words text) start length ↔ IsMention names text start length := by
  constructor
  · intro h
    have hpos := h.length_pos
    have hle := h.length_le
    rw [runLimit, Nat.le_min] at hle
    have hinText : start + length ≤ (Text.words text).length := by omega
    exact ⟨hpos, hle.1, hinText,
      (isSome_nameOf_iff isWord_of_mem_run (run_ne_nil hpos hinText)).1 h.isKnown⟩
  · intro h
    have hinText := h.inText
    refine ⟨h.length_pos, Nat.le_min.2 ⟨h.length_le, by omega⟩, ?_⟩
    exact (isSome_nameOf_iff isWord_of_mem_run (run_ne_nil h.length_pos hinText)).2 h.isName

theorem isFirstHit_iff_isFirstMention :
    IsFirstHit (ofNames names) (Text.words text) start length ↔
      IsFirstMention names text start length := by
  constructor
  · intro h
    exact ⟨isHit_iff_isMention.1 h.toIsHit,
      fun other size hmention ↦ h.leftmost other size (isHit_iff_isMention.2 hmention),
      fun size hmention ↦ h.longest size (isHit_iff_isMention.2 hmention)⟩
  · intro h
    exact ⟨isHit_iff_isMention.2 h.toIsMention,
      fun other size hhit ↦ h.leftmost other size (isHit_iff_isMention.1 hhit),
      fun size hhit ↦ h.longest size (isHit_iff_isMention.1 hhit)⟩

theorem firstMention_eq_none_iff :
    (ofNames names).firstMention text = none ↔
      ∀ start length, ¬ IsMention names text start length := by
  rw [firstMention, firstAmong_eq_none_iff]
  simp only [isHit_iff_isMention]

theorem firstMention_eq_some_iff {shown : String} :
    (ofNames names).firstMention text = some shown ↔
      ∃ start length name, IsFirstMention names text start length ∧
        IsLastWith names (((Text.words text).drop start).take length) name ∧
        Text.trim name = shown := by
  rw [firstMention, firstAmong_eq_some_iff]
  constructor
  · rintro ⟨start, length, hfirst, hshown⟩
    have hmention := isFirstHit_iff_isFirstMention.1 hfirst
    obtain ⟨name, hname, htrim⟩ := (nameOf_eq_some_iff isWord_of_mem_run
      (run_ne_nil hmention.length_pos hmention.inText)).1 hshown
    exact ⟨start, length, name, hmention, hname, htrim⟩
  · rintro ⟨start, length, name, hmention, hname, htrim⟩
    refine ⟨start, length, isFirstHit_iff_isFirstMention.2 hmention, ?_⟩
    exact (nameOf_eq_some_iff isWord_of_mem_run
      (run_ne_nil hmention.length_pos hmention.inText)).2 ⟨name, hname, htrim⟩

/-- The words of a name are the first and longest mention in the name itself. -/
theorem isFirstMention_self {name : String} (hname : name ∈ names)
    (hpos : 1 ≤ (Text.words name).length) (hle : (Text.words name).length ≤ 6) :
    IsFirstMention names name 0 (Text.words name).length := by
  refine ⟨⟨hpos, hle, by omega, name, hname, by simp⟩, fun _ _ _ ↦ Nat.zero_le _, ?_⟩
  intro size hmention
  have := hmention.inText
  omega

/-! ### The number of names -/

theorem mem_keys_iff {key : String} :
    key ∈ (ofNames names).keys ↔
      ∃ name ∈ names, Text.words name ≠ [] ∧ keyOfWords (Text.words name) = key := by
  rw [keys, List.mem_eraseDups]
  induction names using List.reverseRecOn with
  | nil =>
    constructor
    · intro h
      cases h
    · rintro ⟨name, hname, -⟩
      cases hname
  | append_singleton names last ih =>
    rw [known_concat, List.map_append, List.mem_append, ih, knownNameOf_eq]
    by_cases hwords : Text.words last = []
    · simp [hwords]
    · rw [if_neg hwords, Option.toList_some, List.map_singleton, List.mem_singleton]
      constructor
      · rintro (⟨name, hname, hfound⟩ | rfl)
        · exact ⟨name, List.mem_append_left _ hname, hfound⟩
        · exact ⟨last, List.mem_append_right _ (List.mem_singleton_self last), hwords, rfl⟩
      · rintro ⟨name, hname, hne, rfl⟩
        rcases List.mem_append.1 hname with hin | hin
        · exact .inl ⟨name, hin, hne, rfl⟩
        · exact .inr (by rw [List.mem_singleton.1 hin])

/-- The size is the number of different lists of words that names have. -/
theorem size_ofNames (names : List String) :
    (ofNames names).size = ((names.map Text.words).toFinset.erase []).card := by
  have himage : (ofNames names).keys.toFinset =
      ((names.map Text.words).toFinset.erase []).image keyOfWords := by
    ext key
    rw [List.mem_toFinset, mem_keys_iff]
    simp only [Finset.mem_image, Finset.mem_erase, List.mem_toFinset, List.mem_map]
    constructor
    · rintro ⟨name, hname, hwords, rfl⟩
      exact ⟨_, ⟨hwords, name, hname, rfl⟩, rfl⟩
    · rintro ⟨_, ⟨hwords, name, hname, rfl⟩, rfl⟩
      exact ⟨name, hname, hwords, rfl⟩
  have hinjective : Set.InjOn keyOfWords
      ((names.map Text.words).toFinset.erase [] : Finset (List String)) := by
    intro first hfirst second hsecond h
    simp only [Finset.coe_erase, Set.mem_sdiff, Finset.mem_coe, List.mem_toFinset, List.mem_map]
      at hfirst hsecond
    obtain ⟨⟨name, -, rfl⟩, -⟩ := hfirst
    obtain ⟨⟨other, -, rfl⟩, -⟩ := hsecond
    exact (keyOfWords_eq_iff Text.isWord_of_mem_words Text.isWord_of_mem_words).1 h
  have hnodup : (ofNames names).keys.Nodup := nodup_eraseDups _
  rw [size, ← List.toFinset_card_of_nodup hnodup, himage, Finset.card_image_of_injOn hinjective]

/-- A text mentions no known name, or it is answered with the last name that has the words of its
first and longest mention, without blanks at the ends. Every name of at most six words is found in
itself, and the size of the index is the number of different lists of words that names have. -/
theorem firstMention_ofNames (names : List String) (text : String) :
    ((ofNames names).firstMention text = none ↔
      ∀ start length, ¬ IsMention names text start length) ∧
    (∀ shown, (ofNames names).firstMention text = some shown ↔
      ∃ start length name, IsFirstMention names text start length ∧
        IsLastWith names (((Text.words text).drop start).take length) name ∧
        Text.trim name = shown) ∧
    (∀ name ∈ names, 1 ≤ (Text.words name).length → (Text.words name).length ≤ 6 →
      ∃ last, IsLastWith names (Text.words name) last ∧
        (ofNames names).firstMention name = some (Text.trim last)) ∧
    (ofNames names).size = ((names.map Text.words).toFinset.erase []).card := by
  refine ⟨firstMention_eq_none_iff, fun shown ↦ firstMention_eq_some_iff, ?_, size_ofNames names⟩
  intro name hname hpos hle
  obtain ⟨last, hlast⟩ := exists_isLastWith_iff.2 ⟨name, hname, rfl⟩
  have hwords : ((Text.words name).drop 0).take (Text.words name).length = Text.words name := by
    rw [List.drop_zero, List.take_length]
  refine ⟨last, hlast, firstMention_eq_some_iff.2 ?_⟩
  exact ⟨0, _, last, isFirstMention_self hname hpos hle, by rwa [hwords], rfl⟩

/-- A name that is listed twice, once in capitals and with blanks around it, is found in itself. In
a longer text it is found although its first word is a name, too, and it is shown as it is listed
last, without the blanks. -/
theorem firstMention_ofNames_twice :
    "Ba Vì" ∈ ["Ba Vì", "Ba", "  BA vì "] ∧ 1 ≤ (Text.words "Ba Vì").length ∧
      (Text.words "Ba Vì").length ≤ 6 ∧
      (∃ last, IsLastWith ["Ba Vì", "Ba", "  BA vì "] (Text.words "Ba Vì") last ∧
        (ofNames ["Ba Vì", "Ba", "  BA vì "]).firstMention "Ba Vì" = some (Text.trim last)) ∧
      (ofNames ["Ba Vì", "Ba", "  BA vì "]).firstMention "gần Ba Vì" = some "BA vì" := by
  have hmem : "Ba Vì" ∈ ["Ba Vì", "Ba", "  BA vì "] := .head _
  have hlength : (Text.words "Ba Vì").length = 2 := by decide +kernel
  have hfound := (firstMention_ofNames ["Ba Vì", "Ba", "  BA vì "] "Ba Vì").2.2.1 "Ba Vì" hmem
    (by omega) (by omega)
  refine ⟨hmem, by omega, by omega, hfound, ?_⟩
  have htext : Text.words "gần Ba Vì" = ["gần", "ba", "vì"] := by decide +kernel
  have hwords : Text.words "  BA vì " = ["ba", "vì"] := by decide +kernel
  have hfirst : ∀ name ∈ ["Ba Vì", "Ba", "  BA vì "], (Text.words name).head? = some "ba" := by
    decide +kernel
  have hmention : IsFirstMention ["Ba Vì", "Ba", "  BA vì "] "gần Ba Vì" 1 2 := by
    refine ⟨⟨by decide, by decide, by rw [htext]; decide, "  BA vì ", by decide, ?_⟩, ?_, ?_⟩
    · rw [htext, hwords]
      rfl
    · -- All names start with the second word.
      intro start length hother
      by_contra hstart
      obtain rfl : start = 0 := by omega
      obtain ⟨name, hname, hsame⟩ := hother.isName
      have hpos := hother.length_pos
      have hhead := hfirst name hname
      rw [hsame, htext, List.drop_zero, List.head?_take, if_neg (by omega)] at hhead
      exact absurd hhead (by decide)
    · intro size hother
      have hsize := hother.inText
      rw [htext] at hsize
      exact Nat.le_of_add_le_add_left hsize
  have hlast : IsLastWith ["Ba Vì", "Ba", "  BA vì "] ["ba", "vì"] "  BA vì " :=
    ⟨["Ba Vì", "Ba"], [], rfl, hwords, fun _ hother ↦ absurd hother List.not_mem_nil⟩
  refine ((firstMention_ofNames _ _).2.1 "BA vì").2 ⟨1, 2, "  BA vì ", hmention, ?_, ?_⟩
  · rwa [htext]
  · decide +kernel

end AirInquiry.NameIndex
