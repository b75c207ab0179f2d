import Stencil.Proofs.Shift

/-!
# Lists in braces

A list may be put in braces. The braces around it are the ones that are taken off if
those inside it pair up, and then the list is the body that it is without them, one
byte further on. So it has the same items, or it is refused for the same cause.
-/

set_option autoImplicit false

namespace Stencil

structure Balanced (text : Text) : Prop where
  even : text.count '{' = text.count '}'
  leads : ∀ before after, text = before ++ after → before.count '}' ≤ before.count '{'

theorem enclosed_braces_iff {text : Text} :
    Enclosed '{' '}' ('{' :: text ++ ['}']) ↔ Balanced text := by
  rw [List.cons_append, enclosed_cons_iff (by decide)]
  constructor
  · intro h
    refine ⟨?_, fun before after ht => ?_⟩
    · have hbalance := h.balance
      simp at hbalance
      omega
    · have hwithin := h.within before (after ++ ['}']) (by simp [ht]) (by simp)
      omega
  · intro h
    refine ⟨?_, fun before after ht hafter => ?_⟩
    · have heven := h.even
      simp
      omega
    · rw [← List.dropLast_concat_getLast hafter, ← List.append_assoc] at ht
      have hleads := h.leads before after.dropLast (List.append_inj' ht rfl).1
      omega

namespace Expression

/-- A list whose braces pair up, and which is no brace group by itself, says the same in braces:
it has the same items one byte further on, or it is refused for the same opener one byte further
on, or for the mix of its items. -/
theorem parse_in_braces {text : Text} (hb : Balanced text) (hg : ¬ Enclosed '{' '}' text)
    (hs : byteSize text + 2 < offsetLimit) :
    (∃ e e', parse text = .ok e ∧ parse ('{' :: text ++ ['}']) = .ok e' ∧
      e'.items = e.items.map (Item.shift 1) ∧
      e'.items.map Item.normalized = e.items.map Item.normalized) ∨
    (∃ opener span, parse text = refuse (.unmatchedPair opener) span ∧
      parse ('{' :: text ++ ['}']) = refuse (.unmatchedPair opener) (span.shift 1)) ∨
    parse text = refuse (.mixedItems text) ⟨0, byteSize text⟩ ∧
      parse ('{' :: text ++ ['}']) =
        refuse (.mixedItems ('{' :: text ++ ['}'])) ⟨0, byteSize text + 2⟩ := by
  have hsize : byteSize ('{' :: text ++ ['}']) = byteSize text + 2 := by
    rw [byteSize_append, byteSize_cons, show '{'.utf8Size = 1 from rfl,
      show byteSize ['}'] = 1 from rfl]
    omega
  have hbare := parse_eq_ofBody hg (by omega)
  have hbraced := parse_eq_ofGroup (enclosed_braces_iff.mpr hb) (by omega)
  rw [ofGroup_braced, hsize] at hbraced
  rw [hbare, hbraced]
  rcases ofBody_cases 0 1 text text ('{' :: text ++ ['}']) ⟨0, byteSize text⟩
    ⟨0, byteSize text + 2⟩ with ⟨items, hok, hmoved⟩ | hopener | hmixed
  · refine .inl ⟨_, _, hok, hmoved, rfl, ?_⟩
    rw [List.map_map]
    rfl
  · exact .inr (.inl hopener)
  · exact .inr (.inr hmixed)

theorem parse_in_braces_quoted :
    (Balanced "\x7bé\x7d: a?, '\x7b': b\x7d".toList ∧
      ¬ Enclosed '{' '}' "\x7bé\x7d: a?, '\x7b': b\x7d".toList ∧
      ∃ e e', parse "\x7bé\x7d: a?, '\x7b': b\x7d".toList = .ok e ∧
        parse ('{' :: "\x7bé\x7d: a?, '\x7b': b\x7d".toList ++ ['}']) = .ok e' ∧
        e.items = [⟨['a'], some "\x7bé\x7d".toList, some existence, ⟨0, 8⟩⟩,
          ⟨"b\x7d".toList, some "'\x7b'".toList, none, ⟨10, 7⟩⟩] ∧
        e'.items = e.items.map (Item.shift 1)) ∧
    parse "\x7b\x7d[".toList = refuse (.unmatchedPair '[') ⟨2, 1⟩ ∧
    parse ('{' :: "\x7b\x7d[".toList ++ ['}']) = refuse (.unmatchedPair '[') ⟨3, 1⟩ := by
  have hb : Balanced "\x7bé\x7d: a?, '\x7b': b\x7d".toList :=
    enclosed_braces_iff.mp (isBraced_iff.mp (by decide +kernel))
  have hb' : Balanced "\x7b\x7d[".toList :=
    enclosed_braces_iff.mp (isBraced_iff.mp (by decide +kernel))
  have hg : ¬ Enclosed '{' '}' "\x7bé\x7d: a?, '\x7b': b\x7d".toList :=
    fun h => absurd (isBraced_iff.mpr h) (by decide +kernel)
  have hg' : ¬ Enclosed '{' '}' "\x7b\x7d[".toList :=
    fun h => absurd (isBraced_iff.mpr h) (by decide +kernel)
  have hparse : parse "\x7bé\x7d: a?, '\x7b': b\x7d".toList = .ok
      ⟨[⟨['a'], some "\x7bé\x7d".toList, some existence, ⟨0, 8⟩⟩,
        ⟨"b\x7d".toList, some "'\x7b'".toList, none, ⟨10, 7⟩⟩], ⟨0, 17⟩,
        "\x7bé\x7d: a?, '\x7b': b\x7d".toList⟩ := by
    decide +kernel
  have hparse' : parse "\x7b\x7d[".toList = refuse (.unmatchedPair '[') ⟨2, 1⟩ := by
    decide +kernel
  refine ⟨⟨hb, hg, ?_⟩, hparse', ?_⟩
  · rcases parse_in_braces hb hg (by decide) with
      ⟨e, e', he, he', hitems, _⟩ | ⟨_, _, hopener, _⟩ | ⟨hmixed, _⟩
    · refine ⟨e, e', he, he', ?_, hitems⟩
      rw [← Except.ok.inj (hparse.symm.trans he)]
    · cases hparse.symm.trans hopener
    · cases hparse.symm.trans hmixed
  · rcases parse_in_braces hb' hg' (by decide) with
      ⟨_, _, he, _⟩ | ⟨opener, span, hopener, hbraced⟩ | ⟨hmixed, _⟩
    · cases hparse'.symm.trans he
    · obtain ⟨rfl, rfl⟩ : '[' = opener ∧ (⟨2, 1⟩ : Span) = span := by
        simpa [refuse] using hparse'.symm.trans hopener
      exact hbraced
    · cases hparse'.symm.trans hmixed

end Expression

end Stencil
