import KalshiBot.Library.PythonText

/-! # Dictionaries built by comprehensions and loops

What a loop of updates leaves under a key is decided by the items that touch the key.
-/

namespace KalshiBot.PythonText

set_option autoImplicit false

namespace Dict

variable {K V W D : Type} [DecidableEq K]

/-- `d.get(key, default)` -/
def getD (d : Dict K V) (key : K) (default : V) : V := (d.lookup key).getD default

def values (d : Dict K V) : List V := d.entries.map Sigma.snd

def size (d : Dict K V) : ℕ := d.entries.length

/-- `{key: f(value) for key, value in d.items()}` -/
def mapValues (f : V → W) (d : Dict K V) : Dict K W :=
  (d.entries.map fun entry => ⟨entry.1, f entry.2⟩).toAList

/-- `{key: value for key, value in d.items() if keep(value)}` -/
def filterValues (keep : V → Bool) (d : Dict K V) : Dict K V :=
  (d.entries.filter fun entry => keep entry.2).toAList

/-- One item's turn in a loop: the value of each of its keys is updated. -/
def touch (update : D → Option V → V) (keys : List K) (d : Dict K V) (item : D) : Dict K V :=
  keys.foldl (fun d key => d.insert key (update item (d.lookup key))) d

theorem lookup_mapValues (f : V → W) (d : Dict K V) (key : K) :
    (mapValues f d).lookup key = (d.lookup key).map f := by
  have hEntry : (fun entry : Σ _ : K, V => (⟨entry.1, f entry.2⟩ : Σ _ : K, W)) =
      Sigma.map id fun _ => f := rfl
  rw [mapValues, AList.lookup_to_alist, hEntry, List.dlookup_map₂]
  rfl

theorem lookup_filterValues (keep : V → Bool) (d : Dict K V) (key : K) :
    (filterValues keep d).lookup key = (d.lookup key).filter keep := by
  have hKeys : (d.entries.filter fun entry => keep entry.2).NodupKeys :=
    d.nodupKeys.sublist List.filter_sublist
  rw [filterValues, AList.lookup_to_alist]
  ext value
  rw [← Option.mem_def, List.mem_dlookup_iff hKeys, List.mem_filter, Option.filter_eq_some_iff,
    ← List.mem_dlookup_iff d.nodupKeys]
  rfl

theorem mem_values_iff {d : Dict K V} {value : V} :
    value ∈ values d ↔ ∃ key, d.lookup key = some value := by
  rw [values, List.mem_map]
  constructor
  · rintro ⟨⟨key, value⟩, hMem, rfl⟩
    exact ⟨key, AList.mem_lookup_iff.mpr hMem⟩
  · rintro ⟨key, hLookup⟩
    exact ⟨⟨key, value⟩, AList.mem_lookup_iff.mp hLookup, rfl⟩

variable (update : D → Option V → V)

theorem lookup_touch {keys : List K} (hKeys : keys.Nodup) (d : Dict K V) (item : D) (key : K) :
    (touch update keys d item).lookup key =
      if key ∈ keys then some (update item (d.lookup key)) else d.lookup key := by
  induction keys generalizing d with
  | nil => rfl
  | cons first keys ih =>
    obtain ⟨hFirst, hRest⟩ := List.nodup_cons.mp hKeys
    rw [touch, List.foldl_cons, ← touch, ih hRest]
    obtain rfl | hKey := eq_or_ne key first
    · rw [if_neg hFirst, if_pos List.mem_cons_self, AList.lookup_insert]
    · simp only [AList.lookup_insert_ne hKey, List.mem_cons, hKey, false_or]

/-- Only the items with the key count, one after the other. -/
theorem lookup_foldl_touch {keys : D → List K} (hKeys : ∀ item, (keys item).Nodup)
    (items : List D) (d : Dict K V) (key : K) :
    (items.foldl (fun d item => touch update (keys item) d item) d).lookup key =
      (items.filter (key ∈ keys ·)).foldl (fun value item => some (update item value))
        (d.lookup key) := by
  induction items generalizing d with
  | nil => rfl
  | cons item items ih =>
    rw [List.foldl_cons, ih, lookup_touch update (hKeys item), List.filter_cons]
    simp only [decide_eq_true_eq]
    split <;> rfl

end Dict

end KalshiBot.PythonText
