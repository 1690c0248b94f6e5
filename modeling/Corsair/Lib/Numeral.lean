import Mathlib.Data.Nat.Cast.Defs

-- A numeral of a field needs a proof that it is one. Named here, it is the same proof in
-- every module whose constants use the numeral.
namespace Numeral

instance two : Nat.AtLeastTwo 2 := inferInstance
instance three : Nat.AtLeastTwo 3 := inferInstance
instance four : Nat.AtLeastTwo 4 := inferInstance
instance five : Nat.AtLeastTwo 5 := inferInstance
instance six : Nat.AtLeastTwo 6 := inferInstance
instance eight : Nat.AtLeastTwo 8 := inferInstance
instance ten : Nat.AtLeastTwo 10 := inferInstance
instance twentyFour : Nat.AtLeastTwo 24 := inferInstance
instance hundred : Nat.AtLeastTwo 100 := inferInstance
instance nineNinetyNine : Nat.AtLeastTwo 999 := inferInstance
instance thousand : Nat.AtLeastTwo 1000 := inferInstance
instance nineteenTwenty : Nat.AtLeastTwo 1920 := inferInstance
instance tenThousand : Nat.AtLeastTwo 10000 := inferInstance

end Numeral
