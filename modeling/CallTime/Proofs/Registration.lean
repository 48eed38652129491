import Mathlib
import CallTime.Language.Registry

/-!
Languages over a whole history of registrations.

The registry keeps two tables, one by name and one by extension, and the latest registration counts in
each of them. Main statement: which language a file gets can be told from the history, an extension never
leads to a language that is not there, and only a name that was never registered is refused.
-/

namespace CallTime

namespace Languages

/-- The latest registration of which `p` holds. -/
def latest? (p : Language → Bool) (history : List Language) : Option Language :=
  (history.filter p).getLast?

def isNamed (name : String) (l : Language) : Bool := lower l.name = lower name

def lists (extension : String) (l : Language) : Bool :=
  l.extensions.any fun e => lower e = lower extension

variable {p : Language → Bool} {history : List Language} {l : Language}

theorem latest?_concat (p : Language → Bool) (history : List Language) (l : Language) :
    latest? p (history ++ [l]) = if p l then some l else latest? p history := by
  by_cases h : p l <;> simp [latest?, List.filter_append, h]

theorem mem_of_latest? (h : latest? p history = some l) : l ∈ history :=
  (List.mem_filter.mp (List.mem_of_getLast? h)).1

theorem latest?_eq_none_iff : latest? p history = none ↔ ∀ l ∈ history, ¬p l := by
  rw [latest?, List.getLast?_eq_none_iff, List.filter_eq_nil_iff]

theorem exists_latest? (hl : l ∈ history) (h : p l) : ∃ l', latest? p history = some l' := by
  rw [← Option.ne_none_iff_exists']
  intro hnone
  exact latest?_eq_none_iff.mp hnone l hl h

def ofList (history : List Language) : Languages := history.foldl register {}

def after (history : List Language) : Languages := history.foldl register Language.registered

theorem after_eq (history : List Language) : after history = ofList (Language.python :: history) := rfl

theorem ofList_concat (history : List Language) (l : Language) :
    ofList (history ++ [l]) = (ofList history).register l := by
  rw [ofList, List.foldl_append]
  rfl

theorem get?_foldl_insert (es : List String) (name : String) (m : OrderedMap String String) (x : String) :
    (es.foldl (fun m e => m.insert (lower e) name) m).get? x =
      if es.any (fun e => lower e = x) then some name else m.get? x := by
  induction es generalizing m with
  | nil => simp
  | cons e es ih =>
    rw [List.foldl_cons, ih, OrderedMap.get?_insert, List.any_cons]
    by_cases he : lower e = x <;> by_cases hes : es.any (fun e => lower e = x) <;> simp [he, hes]

theorem byName_ofList (history : List Language) (name : String) :
    (ofList history).byName.get? name = latest? (fun l => lower l.name = name) history := by
  induction history using List.reverseRecOn with
  | nil => rfl
  | append_singleton history l ih =>
    rw [ofList_concat, latest?_concat, register, OrderedMap.get?_insert, ih]
    by_cases h : lower l.name = name <;> simp [h]

theorem byExtension_ofList (history : List Language) (x : String) :
    (ofList history).byExtension.get? x =
      (latest? (fun l => l.extensions.any fun e => lower e = x) history).map fun l => lower l.name := by
  induction history using List.reverseRecOn with
  | nil => rfl
  | append_singleton history l ih =>
    rw [ofList_concat, latest?_concat, register, get?_foldl_insert, ih]
    split <;> rfl

theorem named?_ofList (history : List Language) (name : String) :
    (ofList history).named? name = latest? (isNamed name) history :=
  byName_ofList history (lower name)

theorem withExtension?_ofList (history : List Language) (x : String) :
    (ofList history).withExtension? x =
      (latest? (lists x) history).bind fun l => latest? (isNamed l.name) history := by
  rw [withExtension?, byExtension_ofList, Option.bind_map]
  congr 1
  funext l
  exact byName_ofList history (lower l.name)

theorem exists_byName_of_byExtension {x name : String}
    (h : (ofList history).byExtension.get? x = some name) :
    ∃ l, (ofList history).byName.get? name = some l := by
  rw [byExtension_ofList] at h
  obtain ⟨l, hl, rfl⟩ := Option.map_eq_some_iff.mp h
  rw [byName_ofList]
  exact exists_latest? (mem_of_latest? hl) (by simp)

/-- The name that stands for the language of a file: that of the latest language registered with its
suffix, else the default one. -/
def nameFor (file : Location) (default : String) (history : List Language) : String :=
  match if file.suffix.isEmpty then none else latest? (lists file.suffix) history with
  | some l => l.name
  | none => default

theorem forFile_none (file : Location) {default : String} (hdefault : ∃ l ∈ history, isNamed default l) :
    ∃ l, (ofList history).forFile file none default = .ok l ∧
      latest? (isNamed (nameFor file default history)) history = some l := by
  obtain ⟨d, hd, hnamed⟩ := hdefault
  obtain ⟨d', hd'⟩ := exists_latest? hd hnamed
  have hown : (if file.suffix.isEmpty then none else (ofList history).withExtension? file.suffix) =
      (if file.suffix.isEmpty then none else latest? (lists file.suffix) history).bind fun l =>
        latest? (isNamed l.name) history := by
    rw [withExtension?_ofList]
    split <;> rfl
  unfold forFile nameFor
  simp only [hown, named?_ofList, hd']
  -- A language that was registered with the suffix has a latest registration, so the default is not
  -- reached in its place.
  cases hl : (if file.suffix.isEmpty then none else latest? (lists file.suffix) history) with
  | none => exact ⟨d', rfl, hd'⟩
  | some l =>
    have hmem : l ∈ history := by
      split at hl
      · cases hl
      · exact mem_of_latest? hl
    obtain ⟨l', hl'⟩ := exists_latest? (p := isNamed l.name) hmem (by simp [isNamed])
    simp only [Option.bind_some, hl']
    exact ⟨l', rfl, rfl⟩

theorem forFile_of_latest? {name : String} (h : latest? (isNamed name) history = some l)
    (file : Location) (default : String) :
    (ofList history).forFile file (some name) default = .ok l := by
  unfold forFile
  simp only [named?_ofList, h]

theorem forFile_of_unknown {name : String} (h : latest? (isNamed name) history = none)
    (file : Location) (default : String) :
    ∃ reason context,
      (ofList history).forFile file (some name) default = .error (.broken reason context) := by
  unfold forFile
  simp only [named?_ofList, h]
  exact ⟨_, _, rfl⟩

theorem latest?_isNamed_eq_none_iff {name : String} :
    latest? (isNamed name) history = none ↔ ∀ l ∈ history, lower l.name ≠ lower name := by
  rw [latest?_eq_none_iff]
  simp [isNamed]

/-- After any registrations that follow the built-in one, every extension leads to a registered language.
A file gets the latest registration of the language that was last registered with its suffix, or of the
built-in one if the suffix is empty or was never registered. A chosen language is refused just if none was
registered under this name, in whatever case, and its latest registration is found otherwise. -/
theorem registration_law (history : List Language) :
    (∀ x name, (after history).byExtension.get? x = some name →
      ∃ l, (after history).byName.get? name = some l) ∧
    (∀ file, ∃ l, (after history).forFile file none Language.python.name = .ok l ∧
      latest? (isNamed (nameFor file Language.python.name (Language.python :: history)))
        (Language.python :: history) = some l) ∧
    ∀ file name default,
      ((∃ reason context,
          (after history).forFile file (some name) default = .error (.broken reason context)) ↔
        ∀ l ∈ Language.python :: history, lower l.name ≠ lower name) ∧
      ∀ l, latest? (isNamed name) (Language.python :: history) = some l →
        (after history).forFile file (some name) default = .ok l := by
  rw [after_eq]
  refine ⟨fun x name => exists_byName_of_byExtension, fun file => ?_, fun file name default => ?_⟩
  · apply forFile_none
    exact ⟨Language.python, List.mem_cons_self, by simp [isNamed]⟩
  · refine ⟨?_, fun l hl => forFile_of_latest? hl file default⟩
    rw [← latest?_isNamed_eq_none_iff]
    constructor
    · rintro ⟨reason, context, herror⟩
      by_contra hne
      obtain ⟨l, hl⟩ := Option.ne_none_iff_exists'.mp hne
      rw [forFile_of_latest? hl] at herror
      cases herror
    · intro hnone
      exact forFile_of_unknown hnone file default

end Languages

end CallTime
