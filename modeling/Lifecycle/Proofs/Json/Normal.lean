import Lifecycle.Proofs.Json.Tree

/- Printing and reading settle in one step.

   What is read for the printed value of a text is printed like that value, whatever the
   indent (`print_normalises`). The value itself changes on the way only where the text is
   inconsistent, for then its numbers are doubles: those beyond 2^53 - 1 are read exactly the
   second time, and those beyond the doubles are printed as null. Otherwise every leaf comes
   back but for the sign of a zero. -/
namespace Lifecycle

namespace Value

/-- A value without a negative zero in the place of a zero. -/
def plainZero : Value → Value
  | .number x => .number x.asWritten
  | v => v

end Value

namespace Document

theorem value_keptExact (exact : Bool) (d : Document) :
    (d.value exact).Tree fun v => ∀ l, v = .exact l → l.isSafe = false := by
  apply value_tree
  case null => nofun
  case bool => nofun
  case text => nofun
  intro l l' h
  unfold numberValue at h
  split at h
  · rename_i hkept
    cases h
    rw [Bool.and_eq_true, Bool.not_eq_true'] at hkept
    exact hkept.2
  · cases h

theorem comesBack_numberValue (l : Literal) :
    (numberValue true l).comesBack = (numberValue true l).plainZero := by
  unfold numberValue
  cases hs : l.isSafe with
  | false => simp [Value.comesBack, Value.plainZero, numberValue, hs]
  | true =>
    have hfinite := (Literal.written_of_safe hs).1
    have hlarge := Double.isLarge_of_isSafe hs
    simp [Value.comesBack, Value.plainZero, hfinite, hlarge]

theorem value_comesBack (d : Document) :
    (d.value true).Tree fun v => v.comesBack = v.plainZero := by
  apply value_tree
  case null => rfl
  case bool => exact fun _ => rfl
  case text => exact fun _ => rfl
  exact comesBack_numberValue

end Document

namespace Json

theorem blank_indentOf (space : Double) : Blank (indentOf (.number space)) := by
  intro u hu
  rw [indentOf, List.mem_replicate] at hu
  rw [hu.2]
  rfl

/-- **Printing normalises.** The printed value of a text is read again under every indent, and what
    is read is printed like the value. If the text is consistent, it is the value itself, with the
    sign of its zeros left out. -/
theorem print_normalises {t : Text} {v : Value} (h : parse? t = some v) (space : Double) :
    ∃ w, parse? (print (indentOf (.number space)) v) = some w ∧ compact w = compact v ∧
      ∀ d, document? t = some d → d.isConsistent = true → w = v.mapLeaves Value.plainZero := by
  obtain ⟨d, hd, rfl⟩ := Option.map_eq_some_iff.1 h
  have htree : d.toValue.Tree fun v => ∀ l, v = .exact l → l.isSafe = false :=
    Document.value_keptExact _ d
  refine ⟨d.toValue.mapLeaves Value.comesBack, parse?_print (blank_indentOf space) htree, ?_, ?_⟩
  · apply textOf_mapLeaves htree
    · intro v hs _
      exact Value.comesBack_scalar hs
    · intro v level hs hu
      exact Value.textOf_comesBack hs hu
  · intro d' hd' hc
    obtain rfl := Option.some.inj (hd.symm.trans hd')
    rw [Document.toValue, hc]
    exact (Document.value_comesBack d).mapLeaves_congr fun v hv => hv

/-- A text with names that are indices, a half of a pair, a negative zero, a repeated member, and
    numbers that no double is. -/
theorem odd_text_normalised :
    let t : Text := "\x7b\"b\":-0,\"2\":\"\\ud800\",\"a\":1.0,\"1\":[12345678901234567890,1e400],\"a\":1\x7d"
    let printed : Text := "\x7b\"1\":[12345678901234567890,1e400],\"2\":\"\\ud800\",\"b\":0,\"a\":1\x7d"
    ∃ v w, parse? t = some v ∧ parse? (print (indentOf (.number (.ofNat 3))) v) = some w ∧
      compact v = printed ∧ compact w = printed ∧ w = v.mapLeaves Value.plainZero := by
  intro t printed
  have hread : (document? t).map (fun d => (d.isConsistent, compact d.toValue)) = some (true, printed) := by
    decide +kernel
  obtain ⟨d, hd, heq⟩ := Option.map_eq_some_iff.1 hread
  obtain ⟨hconsistent, htext⟩ := Prod.mk.inj heq
  have hv : parse? t = some d.toValue := by rw [parse?, hd]; rfl
  obtain ⟨w, hw, hsame, htree⟩ := print_normalises hv (.ofNat 3)
  exact ⟨d.toValue, w, hv, hw, htext, hsame.trans htext, htree d hd hconsistent⟩

/-- A number that is repeated in another spelling makes a text inconsistent. As a double it is
    infinite, and what is read for its printed value is null. -/
theorem respelled_number_lost :
    let t : Text := "\x7b\"a\":1e400,\"a\":10e399\x7d"
    ∃ first second v w, document? t = some (.object [("a", .number first), ("a", .number second)]) ∧
      first.value = second.value ∧ parse? t = some v ∧
      parse? (print (indentOf (.number (.ofNat 2))) v) = some w ∧ (w.get "a").isAbsent = true ∧
      w ≠ v.mapLeaves Value.plainZero := by
  intro t
  let first : Literal := ⟨false, 1, [], some ⟨false, none, 4, [0, 0]⟩⟩
  let second : Literal := ⟨false, 10, [], some ⟨false, none, 3, [9, 9]⟩⟩
  let d : Document := .object [("a", .number first), ("a", .number second)]
  have hd : document? t = some d :=
    document?_of_numbers [("a", first), ("a", second)] (by decide +kernel)
  have hlost : (parse? (print (indentOf (.number (.ofNat 2))) d.toValue)).map
      (fun w => (w.get "a").isAbsent) = some true := by decide +kernel
  obtain ⟨w, hw, habsent⟩ := Option.map_eq_some_iff.1 hlost
  refine ⟨first, second, d.toValue, w, hd, by decide +kernel, by rw [parse?, hd]; rfl, hw, habsent, ?_⟩
  rintro rfl
  revert habsent
  decide +kernel

end Json

end Lifecycle
