/-!
# Whole numbers

Powers of `Nat` and sums of lists of `Nat` are those of `Nat` wherever they are written, and
never those of a monoid: what runs and what is proved about it then speak of the same number.
-/

namespace Roundtable

@[default_instance 20000]
instance (priority := 20000) natPow : Pow Nat Nat := instPowNat

instance (priority := 20000) natZero : Zero Nat := ⟨0⟩

end Roundtable
