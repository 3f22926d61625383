/-!
# Dictionaries

Values under names, held in the order of the names, so that two ways of filling a dictionary with
the same entries give the same dictionary.
-/

namespace EntityFlux

abbrev Dictionary (α : Type) := List (String × α)

namespace Dictionary

variable {α : Type}

/-- The first value under a name. -/
def get? (name : String) : Dictionary α → Option α
  | [] => none
  | (other, value) :: rest => if name = other then some value else get? name rest

/-- Puts a value under a name; what stood there before is lost. -/
def set (name : String) (value : α) : Dictionary α → Dictionary α
  | [] => [(name, value)]
  | (other, old) :: rest =>
    if name < other then (name, value) :: (other, old) :: rest
    else if name = other then (name, value) :: rest
    else (other, old) :: set name value rest

/-- Of several entries under one name the last counts. -/
def ofList (entries : List (String × α)) : Dictionary α :=
  entries.foldl (fun d entry => set entry.1 entry.2 d) []

@[simp] theorem get?_set_self (d : Dictionary α) (name : String) (value : α) :
    get? name (set name value d) = some value := by
  induction d with
  | nil => simp [set, get?]
  | cons entry rest ih =>
    by_cases lt : name < entry.1
    · simp [set, get?, lt]
    · by_cases eq : name = entry.1
      · simp [set, get?, eq]
      · simp [set, get?, lt, eq, ih]

theorem get?_set_of_ne (d : Dictionary α) {name key : String} (value : α) (h : key ≠ name) :
    get? key (set name value d) = get? key d := by
  induction d with
  | nil => simp [set, get?, h]
  | cons entry rest ih =>
    by_cases lt : name < entry.1
    · simp [set, get?, lt, h]
    · by_cases eq : name = entry.1
      · simp [set, get?, ← eq, h]
      · simp [set, get?, lt, eq, ih]

theorem mem_of_get? {d : Dictionary α} {name : String} {value : α}
    (h : get? name d = some value) : (name, value) ∈ d := by
  induction d with
  | nil => simp [get?] at h
  | cons entry rest ih =>
    simp only [get?] at h
    split at h
    · rename_i hn
      obtain rfl := Option.some.inj h
      rw [hn]
      exact List.mem_cons_self
    · exact List.mem_cons_of_mem _ (ih h)

theorem get?_of_mem {d : Dictionary α} (hnames : (d.map (·.1)).Nodup) {name : String} {value : α}
    (h : (name, value) ∈ d) : get? name d = some value := by
  induction d with
  | nil => cases h
  | cons entry rest ih =>
    obtain ⟨hfirst, hrest⟩ := List.nodup_cons.1 hnames
    rcases List.mem_cons.1 h with rfl | h
    · rw [get?, if_pos rfl]
    · rw [get?, if_neg, ih hrest h]
      rintro rfl
      exact hfirst (List.mem_map.2 ⟨_, h, rfl⟩)

end Dictionary

end EntityFlux
